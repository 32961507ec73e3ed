/-
Module: Batpak.Proofs.PlannerContract
Purpose: Planning as a fail-closed contract, kept exactly while the lanes of the shadow circuit
  have slots of their own.
Trusted boundary: the canonical encoder writes every value it is given
Main exports: planWith_failClosed_iff, plan_failClosed_iff
-/
import Batpak.Proofs.BudgetNames
import Batpak.Proofs.PlanIdentity

namespace Batpak.Bvisor

open Batpak.Util

variable {trace : List Bool}

variable {Profile : Type} {codec : PlanCodec} {backend : Backend Profile} {spec : BoundarySpec}

/-! ### The contract -/

/-- The verdict on a requirement, over the profile of the one probe. -/
def verdictOf (backend : Backend Profile) (req : BoundaryRequirement) : SupportVerdict :=
  backend.classify req (backend.profile backend.probe)

def PoliciesValid (spec : BoundarySpec) : Prop :=
  ∀ policy, .environment policy ∈ spec.capabilities → policy.validate = .ok ()

def Supported (backend : Backend Profile) (spec : BoundarySpec) : Prop :=
  ∀ req ∈ spec.requirements, (verdictOf backend req).enforcement ≠ .unsupported

/-- Every required claim is promised by some verdict. -/
def EvidenceCovered (backend : Backend Profile) (spec : BoundarySpec) : Prop :=
  ∀ claim ∈ spec.evidence.requiredClaims,
    ∃ req ∈ spec.requirements, claim ∈ (verdictOf backend req).evidence

def budgetsOf (backend : Backend Profile) (spec : BoundarySpec) (digest : Digest32) :
    Except BudgetRefusal AdmittedBudgets :=
  budgetAdmit spec.budgets backend.probe.budget (deriveMinimums spec) digest

/-- What planning owes for a spec. Each stage speaks only once the stages before it passed. -/
structure FailClosed (codec : PlanCodec) (backend : Backend Profile) (spec : BoundarySpec)
    (result : Except PlanError BoundaryPlan) : Prop where
  admits : (∃ p, result = .ok p) ↔
    PoliciesValid spec ∧ Supported backend spec ∧ EvidenceCovered backend spec ∧
      ∀ digest, ∃ budgets, budgetsOf backend spec digest = .ok budgets
  policy : ∀ before policy after error,
    spec.capabilities = before ++ .environment policy :: after →
      (∀ p, .environment p ∈ before → p.validate = .ok ()) → policy.validate = .error error →
        result = .error (.invalidPolicy (error.display codec.debugString))
  support : PoliciesValid spec → ∀ before req after,
    spec.requirements = before ++ req :: after →
      (∀ r ∈ before, (verdictOf backend r).enforcement ≠ .unsupported) →
        (verdictOf backend req).enforcement = .unsupported →
          result = .error (.unsupported req backend.id)
  evidence : PoliciesValid spec → Supported backend spec → ¬ EvidenceCovered backend spec →
    ∃ detail, result = .error (.evidenceUnsatisfiable backend.id detail)
  budget : PoliciesValid spec → Supported backend spec → EvidenceCovered backend spec →
    ∀ digest refusal, budgetsOf backend spec digest = .error refusal →
      result = .error (.budgetRefused backend.id refusal.dimension refusal.failure)
  agreed : ∀ detail, result ≠ .error (.shadowDivergence detail)
  entries : ∀ p, result = .ok p → p.admitted = spec.requirements.map fun req =>
    ⟨req, (verdictOf backend req).enforcement,
      backend.mechanism req (verdictOf backend req).enforcement⟩

/-- The circuit reads every lane from a slot of its own, or only misses evidence that is there. -/
def SlotsSuffice (backend : Backend Profile) (spec : BoundarySpec) : Prop :=
  PoliciesValid spec → spec.requirements.length < u16Max ∨
    spec.requirements.length = u16Max ∧ EvidenceCovered backend spec

/-- The encoder writes what it is given. -/
structure PlanCodec.Writes (codec : PlanCodec) : Prop where
  fingerprint : ∀ f, ∃ bytes, codec.fingerprintBytes f = .ok bytes
  budget : ∀ profile, ∃ bytes, codec.budgetBytes profile = .ok bytes

/-! ### The membranes on what was classified -/

/-- What the requirements are classified as. -/
def classifiedOf (backend : Backend Profile) (spec : BoundarySpec) : Classified :=
  classifyAll backend (backend.profile backend.probe) spec

theorem mem_classifiedOf {c : BoundaryRequirement × SupportVerdict} :
    c ∈ classifiedOf backend spec ↔ ∃ req ∈ spec.requirements, (req, verdictOf backend req) = c :=
  List.mem_map

theorem supported_iff_classified :
    (∀ c ∈ classifiedOf backend spec, c.2.enforcement ≠ .unsupported) ↔ Supported backend spec := by
  constructor
  · intro h req hreq
    exact h _ (mem_classifiedOf.mpr ⟨req, hreq, rfl⟩)
  · intro h c hc
    obtain ⟨req, hreq, rfl⟩ := mem_classifiedOf.mp hc
    exact h req hreq

theorem covered_iff_available :
    spec.evidence.requiredClaims ⊆ availableEvidence (classifiedOf backend spec) ↔
      EvidenceCovered backend spec := by
  constructor
  · intro h claim hclaim
    obtain ⟨c, hc, hmem⟩ := mem_availableEvidence.mp (h hclaim)
    obtain ⟨req, hreq, rfl⟩ := mem_classifiedOf.mp hc
    exact ⟨req, hreq, hmem⟩
  · intro h claim hclaim
    obtain ⟨req, hreq, hmem⟩ := h claim hclaim
    exact mem_availableEvidence.mpr ⟨_, mem_classifiedOf.mpr ⟨req, hreq, rfl⟩, hmem⟩

theorem one_le_maskCode (enforcement : Enforcement) :
    1 ≤ (maskCode (enforcementCode enforcement)).toNat ↔ enforcement ≠ .unsupported := by
  cases enforcement <;> decide

/-- The bits of the lanes are the claims of the sets. -/
theorem maskEvidence_subset (required available : EvidenceSet) :
    maskEvidence (evidenceBits required) &&& ~~~maskEvidence (evidenceBits available) = 0 ↔
      required ⊆ available := by
  have hmask : ∀ (set : EvidenceSet) (i : Nat),
      (maskEvidence (evidenceBits set)).getLsbD i = true ↔
        ∃ claim ∈ set, evidenceBit claim = i := by
    intro set i
    rw [BitVec.getLsbD, maskEvidence_toNat, ← BitVec.getLsbD]
    by_cases hi : i < 16
    · exact evidenceBits_getLsbD set hi
    · rw [BitVec.getLsbD_of_ge _ _ (Nat.not_lt.mp hi)]
      constructor
      · intro h
        cases h
      · rintro ⟨claim, -, rfl⟩
        exact absurd (evidenceBit_lt claim) hi
  rw [subset_iff]
  simp only [hmask]
  constructor
  · intro h claim hclaim
    obtain ⟨other, hother, hbit⟩ := h (evidenceBit claim) ⟨claim, hclaim, rfl⟩
    exact evidenceBit_inj hbit ▸ hother
  · rintro h i ⟨claim, hclaim, rfl⟩
    exact ⟨claim, h hclaim, rfl⟩

/-- The inputs of both paths. -/
def inputsOf (backend : Backend Profile) (spec : BoundarySpec) : PlannerInputs :=
  plannerInputs (classifiedOf backend spec) spec.evidence.requiredClaims

theorem length_inputsOf :
    (inputsOf backend spec).enforcement.length = spec.requirements.length := by
  simp [inputsOf, plannerInputs, classifiedOf, classifyAll]

open Classical in
theorem plannerTrace_inputsOf :
    plannerTrace (inputsOf backend spec) =
      [decide (Supported backend spec), decide (EvidenceCovered backend spec)] := by
  have hsupport : ((inputsOf backend spec).enforcement.all fun e => 1 ≤ (maskCode e).toNat) =
      decide (Supported backend spec) := by
    rw [Bool.eq_iff_iff, List.all_eq_true, decide_eq_true_iff, ← supported_iff_classified]
    simp only [inputsOf, plannerInputs, List.mem_map, forall_exists_index, and_imp,
      forall_apply_eq_imp_iff₂, decide_eq_true_iff, one_le_maskCode]
  have hevidence : decide (maskEvidence (inputsOf backend spec).evidenceRequired &&&
      ~~~maskEvidence (inputsOf backend spec).evidenceAvailable = 0) =
        decide (EvidenceCovered backend spec) := by
    rw [Bool.eq_iff_iff, decide_eq_true_iff, decide_eq_true_iff, ← covered_iff_available]
    exact maskEvidence_subset _ _
  rw [plannerTrace, hsupport, hevidence]

/-- The first membrane that fails, or none. -/
theorem reference_cases :
    (Supported backend spec ∧ EvidenceCovered backend spec ∧
      ∃ trace, plannerReference (inputsOf backend spec) = .admitted trace) ∨
    (¬ Supported backend spec ∧
      ∃ trace, plannerReference (inputsOf backend spec) = .refused 1 1 trace 0 0 0) ∨
    (Supported backend spec ∧ ¬ EvidenceCovered backend spec ∧
      ∃ trace, plannerReference (inputsOf backend spec) = .refused 2 2 trace 0 0 0) := by
  classical
  unfold plannerReference
  rw [plannerTrace_inputsOf]
  by_cases hsupport : Supported backend spec
  · by_cases hcovered : EvidenceCovered backend spec
    · apply Or.inl
      rw [decide_eq_true hsupport, decide_eq_true hcovered]
      exact ⟨hsupport, hcovered, _, rfl⟩
    · apply Or.inr
      apply Or.inr
      rw [decide_eq_true hsupport, decide_eq_false hcovered]
      exact ⟨hsupport, hcovered, _, rfl⟩
  · apply Or.inr
    apply Or.inl
    rw [decide_eq_false hsupport]
    exact ⟨hsupport, _, rfl⟩

/-! ### The shadow -/

/-- A trace is part of every outcome. -/
theorem trace_of_outcome {trace' : List Bool} {details : MembraneDetails}
    (h : outcomeFromTrace trace details = outcomeFromTrace trace' details) : trace = trace' := by
  unfold outcomeFromTrace at h
  cases htrace : trace.findIdx? fun pass => !pass with
  | none =>
      cases htrace' : trace'.findIdx? fun pass => !pass with
      | none => simpa [htrace, htrace'] using h
      | some j => simp [htrace, htrace'] at h
  | some i =>
      cases htrace' : trace'.findIdx? fun pass => !pass with
      | none => simp [htrace, htrace'] at h
      | some j =>
          simp only [htrace, htrace', AdmissionOutcome.refused.injEq] at h
          exact h.2.2.1

/-- With the required evidence in the place of the available one, the second membrane passes. -/
theorem agrees_with_required_iff :
    plannerReference { inputsOf backend spec with
        evidenceAvailable := (inputsOf backend spec).evidenceRequired } =
      plannerReference (inputsOf backend spec) ↔ EvidenceCovered backend spec := by
  classical
  have hself : plannerTrace { inputsOf backend spec with
      evidenceAvailable := (inputsOf backend spec).evidenceRequired } =
        [decide (Supported backend spec), true] := by
    have htrace := @plannerTrace_inputsOf _ backend spec
    rw [plannerTrace, List.cons.injEq] at htrace ⊢
    refine ⟨htrace.1, ?_⟩
    simp [BitVec.and_not_self]
  constructor
  · intro h
    have htrace := trace_of_outcome h
    rw [hself, plannerTrace_inputsOf] at htrace
    simpa using htrace
  · intro h
    unfold plannerReference
    rw [hself, plannerTrace_inputsOf]
    simp [h]

/-- The shadow lets the reference through exactly while the slots suffice. -/
theorem shadow_ok_iff {outcome : AdmissionOutcome} :
    plannerShadowCheck (inputsOf backend spec) = .ok outcome ↔
      outcome = plannerReference (inputsOf backend spec) ∧
        (spec.requirements.length < u16Max ∨
          spec.requirements.length = u16Max ∧ EvidenceCovered backend spec) := by
  rw [plannerShadowCheck_ok, evidenceRead, length_inputsOf]
  apply and_congr_right
  intro _
  by_cases hlt : spec.requirements.length < u16Max
  · rw [if_pos hlt]
    simp [hlt, hlt.le]
  · rw [if_neg hlt, agrees_with_required_iff, Nat.le_iff_lt_or_eq]
    simp [hlt]

/-! ### The stages of the planner -/

theorem planWith_valid (h : PoliciesValid spec) :
    planWith codec backend spec =
      ((plannerShadowCheck (inputsOf backend spec)).mapError fun divergence =>
        PlanError.shadowDivergence divergence.display) >>=
          settleOutcome codec backend backend.probe (classifiedOf backend spec) spec := by
  have hpolicies : validateCapabilityPolicies codec spec.capabilities = .ok () :=
    validateCapabilityPolicies_ok.mpr h
  unfold planWith inputsOf classifiedOf
  rw [hpolicies]
  dsimp only [bind, Except.bind]

theorem planWith_agreed (h : PoliciesValid spec)
    (hslots : SlotsSuffice backend spec) :
    planWith codec backend spec =
      settleOutcome codec backend backend.probe (classifiedOf backend spec) spec
        (plannerReference (inputsOf backend spec)) := by
  rw [planWith_valid h, shadow_ok_iff.mpr ⟨rfl, hslots h⟩]
  rfl

/-- Without slots there is a divergence, whatever the reference decided. -/
theorem planWith_diverges (h : PoliciesValid spec) (hslots : ¬ SlotsSuffice backend spec) :
    ∃ detail, planWith codec backend spec = .error (.shadowDivergence detail) := by
  rw [planWith_valid h]
  cases hshadow : plannerShadowCheck (inputsOf backend spec) with
  | ok outcome => exact absurd (fun _ => (shadow_ok_iff.mp hshadow).2) hslots
  | error divergence => exact ⟨_, rfl⟩

/-- The first invalid policy stops the planner. -/
theorem validateCapabilityPolicies_error {before after : List Capability} {policy : EnvPolicy}
    {error : EnvPolicyError} (hbefore : ∀ p, .environment p ∈ before → p.validate = .ok ())
    (herror : policy.validate = .error error) :
    validateCapabilityPolicies codec (before ++ .environment policy :: after) =
      .error (.invalidPolicy (error.display codec.debugString)) := by
  induction before with
  | nil =>
      rw [List.nil_append, validateCapabilityPolicies, herror]
      rfl
  | cons capability rest ih =>
      have hrest := ih fun p hp => hbefore p (List.mem_cons_of_mem _ hp)
      cases capability with
      | environment p =>
          rw [List.cons_append, validateCapabilityPolicies, hbefore p List.mem_cons_self]
          exact hrest
      | filesystem _ _ _ _ => exact hrest
      | network _ => exact hrest
      | childSpawn _ => exact hrest
      | inheritedFds _ => exact hrest

theorem exists_invalid_policy {capabilities : List Capability}
    (h : ¬ ∀ policy, .environment policy ∈ capabilities → policy.validate = .ok ()) :
    ∃ before policy after error, capabilities = before ++ .environment policy :: after ∧
      (∀ p, .environment p ∈ before → p.validate = .ok ()) ∧ policy.validate = .error error := by
  induction capabilities with
  | nil => simp at h
  | cons capability rest ih =>
      by_cases hfirst : ∀ p, .environment p = capability → p.validate = .ok ()
      · have hrest : ¬ ∀ policy, .environment policy ∈ rest → policy.validate = .ok () := by
          intro hrest
          apply h
          intro p hp
          exact (List.mem_cons.mp hp).elim (hfirst p) (hrest p)
        obtain ⟨before, policy, after, error, rfl, hbefore, herror⟩ := ih hrest
        refine ⟨capability :: before, policy, after, error, rfl, ?_, herror⟩
        intro p hp
        exact (List.mem_cons.mp hp).elim (hfirst p) (hbefore p)
      · simp only [not_forall] at hfirst
        obtain ⟨policy, rfl, hinvalid⟩ := hfirst
        cases herror : policy.validate with
        | ok u => exact absurd herror hinvalid
        | error error => exact ⟨[], policy, rest, error, rfl, by simp, herror⟩

/-- The first requirement that is not supported names the refusal. -/
theorem settleOutcome_support {before after : List BoundaryRequirement} {req : BoundaryRequirement}
    (hsplit : spec.requirements = before ++ req :: after)
    (hbefore : ∀ r ∈ before, (verdictOf backend r).enforcement ≠ .unsupported)
    (hreq : (verdictOf backend req).enforcement = .unsupported) :
    settleOutcome codec backend backend.probe (classifiedOf backend spec) spec
      (.refused 1 1 trace 0 0 0) = .error (.unsupported req backend.id) := by
  have hfind : (classifiedOf backend spec).find? (fun c => c.2.enforcement = .unsupported) =
      some (req, verdictOf backend req) := by
    apply List.find?_eq_some_iff_append.mpr
    refine ⟨by simpa using hreq, before.map fun r => (r, verdictOf backend r),
      after.map fun r => (r, verdictOf backend r), ?_, ?_⟩
    · change spec.requirements.map (fun r => (r, verdictOf backend r)) = _
      rw [hsplit, List.map_append, List.map_cons]
    · intro c hc
      obtain ⟨r, hr, rfl⟩ := List.mem_map.mp hc
      simpa using hbefore r hr
  simp only [settleOutcome, hfind]

theorem exists_first_unsupported (h : ¬ Supported backend spec) :
    ∃ before req after, spec.requirements = before ++ req :: after ∧
      (∀ r ∈ before, (verdictOf backend r).enforcement ≠ .unsupported) ∧
        (verdictOf backend req).enforcement = .unsupported := by
  have hsome : (spec.requirements.find? fun r =>
      decide ((verdictOf backend r).enforcement = .unsupported)) ≠ none := by
    intro hnone
    apply h
    intro req hreq
    simpa using List.find?_eq_none.mp hnone req hreq
  obtain ⟨req, hfind⟩ := Option.ne_none_iff_exists'.mp hsome
  obtain ⟨hreq, before, after, hsplit, hbefore⟩ := List.find?_eq_some_iff_append.mp hfind
  exact ⟨before, req, after, hsplit, by simpa using hbefore, by simpa using hreq⟩

/-! ### The budgets -/

/-- Both fail with one error, or both succeed. -/
def SameFate {ε α : Type} (x y : Except ε α) : Prop :=
  (∃ e, x = .error e ∧ y = .error e) ∨ ∃ a b, x = .ok a ∧ y = .ok b

namespace SameFate

variable {ε α β : Type}

theorem refl (x : Except ε α) : SameFate x x := by
  cases x with
  | error e => exact .inl ⟨e, rfl, rfl⟩
  | ok a => exact .inr ⟨a, a, rfl, rfl⟩

theorem bind {x y : Except ε α} {f g : α → Except ε β} (h : SameFate x y)
    (hrest : ∀ a b, SameFate (f a) (g b)) : SameFate (x >>= f) (y >>= g) := by
  rcases h with ⟨e, rfl, rfl⟩ | ⟨a, b, rfl, rfl⟩
  · exact .inl ⟨e, rfl, rfl⟩
  · exact hrest a b

theorem error {x y : Except ε α} (h : SameFate x y) {e : ε} (hx : x = .error e) :
    y = .error e := by
  rcases h with ⟨e', rfl, rfl⟩ | ⟨a, b, rfl, rfl⟩
  · exact hx
  · cases hx

theorem ok {x y : Except ε α} (h : SameFate x y) {a : α} (hx : x = .ok a) : ∃ b, y = .ok b := by
  rcases h with ⟨e, rfl, rfl⟩ | ⟨a, b, rfl, rfl⟩
  · cases hx
  · exact ⟨b, rfl⟩

end SameFate

theorem adjudicate_sameFate (digest digest' : Digest32) (dimension : BudgetDimension)
    (request : BudgetRequest) (availability : BudgetAvailability) :
    SameFate (adjudicate digest dimension request availability)
      (adjudicate digest' dimension request availability) := by
  unfold adjudicate adjudicateDimension
  by_cases hcapacity : availability.available < request.limit
  · simp only [if_pos hcapacity]
    exact .refl _
  · simp only [if_neg hcapacity]
    by_cases hguarantee :
        enforcementStrength availability.enforcement < guaranteeStrength request.guarantee
    · simp only [if_pos hguarantee]
      exact .refl _
    · simp only [if_neg hguarantee]
      by_cases hevidence : ¬request.evidence ⊆ availability.evidence
      · simp only [if_pos hevidence]
        exact .refl _
      · simp only [if_neg hevidence]
        exact .inr ⟨_, _, rfl, rfl⟩

/-- The digest is recorded and decides nothing. -/
theorem budgetsOf_sameFate (digest digest' : Digest32) :
    SameFate (budgetsOf backend spec digest) (budgetsOf backend spec digest') := by
  unfold budgetsOf budgetAdmit
  apply (SameFate.refl _).bind
  intro _ _
  iterate 7
    apply (adjudicate_sameFate digest digest' _ _ _).bind
    intro _ _
  exact .inr ⟨_, _, rfl, rfl⟩

/-! ### The planner keeps the contract -/

/-- Past the membranes, the budgets decide, and the encoder does not fail. -/
theorem buildAdmittedPlan_budget (hcodec : codec.Writes) {digest : Digest32}
    {refusal : BudgetRefusal} (h : budgetsOf backend spec digest = .error refusal) :
    buildAdmittedPlan codec backend backend.probe (classifiedOf backend spec) spec =
      .error (.budgetRefused backend.id refusal.dimension refusal.failure) := by
  obtain ⟨bytes, hbytes⟩ := hcodec.budget backend.probe.budget
  have hdigest : budgetProfileDigest codec backend.probe = .ok (codec.hash bytes) := by
    unfold budgetProfileDigest
    rw [hbytes]
    rfl
  have hrefused : budgetAdmit spec.budgets backend.probe.budget (deriveMinimums spec)
      (codec.hash bytes) = .error refusal := (budgetsOf_sameFate digest (codec.hash bytes)).error h
  unfold buildAdmittedPlan
  rw [hdigest]
  change (Except.mapError _ (budgetAdmit spec.budgets backend.probe.budget (deriveMinimums spec)
    (codec.hash bytes)) >>= _) = _
  rw [hrefused]
  rfl

theorem buildAdmittedPlan_admits (hcodec : codec.Writes) {digest : Digest32}
    {budgets : AdmittedBudgets} (h : budgetsOf backend spec digest = .ok budgets) :
    ∃ p, buildAdmittedPlan codec backend backend.probe (classifiedOf backend spec) spec = .ok p := by
  obtain ⟨bytes, hbytes⟩ := hcodec.budget backend.probe.budget
  have hdigest : budgetProfileDigest codec backend.probe = .ok (codec.hash bytes) := by
    unfold budgetProfileDigest
    rw [hbytes]
    rfl
  obtain ⟨admitted, hadmitted⟩ := (budgetsOf_sameFate digest (codec.hash bytes)).ok h
  obtain ⟨print, hprint⟩ := hcodec.fingerprint (planFingerprint codec backend.id backend.probe
    (admittedRequirements backend (classifiedOf backend spec)) spec admitted)
  refine ⟨⟨boundaryPlanSchemaVersion, codec.hash print, backend.id, backend.probe,
    admittedRequirements backend (classifiedOf backend spec), spec.workload, admitted,
    spec.evidence⟩, ?_⟩
  apply buildAdmittedPlan_ok.mpr
  refine ⟨⟨_, hdigest, hadmitted⟩, ?_, ⟨rfl, rfl, rfl, rfl, rfl, rfl⟩⟩
  unfold computePlanId
  rw [hprint]
  rfl

/-- The stages that must all pass. -/
def EveryStagePasses (backend : Backend Profile) (spec : BoundarySpec) : Prop :=
  PoliciesValid spec ∧ Supported backend spec ∧ EvidenceCovered backend spec ∧
    ∀ digest, ∃ budgets, budgetsOf backend spec digest = .ok budgets

/-- A refusal, once each stage is known to have its own. -/
theorem FailClosed.of_error {result : Except PlanError BoundaryPlan} {error : PlanError}
    (hresult : result = .error error) (hagreed : ∀ detail, error ≠ .shadowDivergence detail)
    (hnot : ¬ EveryStagePasses backend spec)
    (policy : ∀ before policy after invalid,
      spec.capabilities = before ++ .environment policy :: after →
        (∀ p, .environment p ∈ before → p.validate = .ok ()) → policy.validate = .error invalid →
          result = .error (.invalidPolicy (invalid.display codec.debugString)))
    (support : PoliciesValid spec → ∀ before req after,
      spec.requirements = before ++ req :: after →
        (∀ r ∈ before, (verdictOf backend r).enforcement ≠ .unsupported) →
          (verdictOf backend req).enforcement = .unsupported →
            result = .error (.unsupported req backend.id))
    (evidence : PoliciesValid spec → Supported backend spec → ¬ EvidenceCovered backend spec →
      ∃ detail, result = .error (.evidenceUnsatisfiable backend.id detail))
    (budget : PoliciesValid spec → Supported backend spec → EvidenceCovered backend spec →
      ∀ digest refusal, budgetsOf backend spec digest = .error refusal →
        result = .error (.budgetRefused backend.id refusal.dimension refusal.failure)) :
    FailClosed codec backend spec result := by
  refine ⟨?_, policy, support, evidence, budget, ?_, ?_⟩
  · constructor
    · rintro ⟨p, hp⟩
      rw [hresult] at hp
      cases hp
    · intro hall
      exact absurd hall hnot
  · intro detail hdetail
    rw [hresult] at hdetail
    exact hagreed detail (Except.error.inj hdetail)
  · intro p hp
    rw [hresult] at hp
    cases hp

theorem failClosed_of_invalid (h : ¬ PoliciesValid spec) :
    FailClosed codec backend spec (planWith codec backend spec) := by
  have herror : ∀ before policy after error,
      spec.capabilities = before ++ .environment policy :: after →
        (∀ p, .environment p ∈ before → p.validate = .ok ()) → policy.validate = .error error →
          planWith codec backend spec = .error (.invalidPolicy (error.display codec.debugString)) := by
    intro before policy after error hsplit hbefore hinvalid
    unfold planWith
    rw [hsplit, validateCapabilityPolicies_error hbefore hinvalid]
    rfl
  obtain ⟨before, policy, after, error, hsplit, hbefore, hinvalid⟩ := exists_invalid_policy h
  apply FailClosed.of_error (herror before policy after error hsplit hbefore hinvalid)
  · intro detail hdetail
    cases hdetail
  · exact fun hall => h hall.1
  · exact herror
  · exact fun hvalid => absurd hvalid h
  · exact fun hvalid => absurd hvalid h
  · exact fun hvalid => absurd hvalid h

/-- Under valid policies no stage refuses over one. -/
theorem no_invalid_policy (hvalid : PoliciesValid spec) {before after : List Capability}
    {policy : EnvPolicy} {error : EnvPolicyError}
    (hsplit : spec.capabilities = before ++ .environment policy :: after)
    (hinvalid : policy.validate = .error error) : False := by
  have hok := hvalid policy (hsplit ▸ List.mem_append_right _ List.mem_cons_self)
  rw [hinvalid] at hok
  cases hok

theorem failClosed_of_unsupported (hvalid : PoliciesValid spec) (hslots : SlotsSuffice backend spec)
    (hsupport : ¬ Supported backend spec)
    (hreference : plannerReference (inputsOf backend spec) = .refused 1 1 trace 0 0 0) :
    FailClosed codec backend spec (planWith codec backend spec) := by
  have herror : ∀ before req after, spec.requirements = before ++ req :: after →
      (∀ r ∈ before, (verdictOf backend r).enforcement ≠ .unsupported) →
        (verdictOf backend req).enforcement = .unsupported →
          planWith codec backend spec = .error (.unsupported req backend.id) := by
    intro before req after hsplit hbefore hreq
    rw [planWith_agreed hvalid hslots, hreference]
    exact settleOutcome_support hsplit hbefore hreq
  obtain ⟨before, req, after, hsplit, hbefore, hreq⟩ := exists_first_unsupported hsupport
  apply FailClosed.of_error (herror before req after hsplit hbefore hreq)
  · intro detail hdetail
    cases hdetail
  · exact fun hall => hsupport hall.2.1
  · intro _ _ _ _ hsplit _ hinvalid
    exact (no_invalid_policy hvalid hsplit hinvalid).elim
  · exact fun _ => herror
  · exact fun _ hall => absurd hall hsupport
  · exact fun _ hall => absurd hall hsupport

theorem failClosed_of_uncovered (hvalid : PoliciesValid spec) (hslots : SlotsSuffice backend spec)
    (hsupport : Supported backend spec) (hcovered : ¬ EvidenceCovered backend spec)
    (hreference : plannerReference (inputsOf backend spec) = .refused 2 2 trace 0 0 0) :
    FailClosed codec backend spec (planWith codec backend spec) := by
  have herror : ∃ detail,
      planWith codec backend spec = .error (.evidenceUnsatisfiable backend.id detail) := by
    rw [planWith_agreed hvalid hslots, hreference]
    exact ⟨_, rfl⟩
  obtain ⟨detail, hresult⟩ := herror
  apply FailClosed.of_error hresult
  · intro detail hdetail
    cases hdetail
  · exact fun hall => hcovered hall.2.2.1
  · intro _ _ _ _ hsplit _ hinvalid
    exact (no_invalid_policy hvalid hsplit hinvalid).elim
  · intro _ _ req _ hsplit _ hreq
    exact absurd hreq (hsupport req (hsplit ▸ List.mem_append_right _ List.mem_cons_self))
  · exact fun _ _ _ => ⟨detail, hresult⟩
  · exact fun _ _ hall => absurd hall hcovered

/-- The membranes passed, and the budgets decide. -/
theorem failClosed_of_covered (hcodec : codec.Writes) (hvalid : PoliciesValid spec)
    (hslots : SlotsSuffice backend spec) (hsupport : Supported backend spec)
    (hcovered : EvidenceCovered backend spec)
    (hreference : plannerReference (inputsOf backend spec) = .admitted trace) :
    FailClosed codec backend spec (planWith codec backend spec) := by
  have hresult : planWith codec backend spec =
      buildAdmittedPlan codec backend backend.probe (classifiedOf backend spec) spec := by
    rw [planWith_agreed hvalid hslots, hreference]
    rfl
  have hpolicy : ∀ before policy after error,
      spec.capabilities = before ++ .environment policy :: after →
        (∀ p, .environment p ∈ before → p.validate = .ok ()) → policy.validate = .error error →
          planWith codec backend spec = .error (.invalidPolicy (error.display codec.debugString)) := by
    intro _ _ _ _ hsplit _ hinvalid
    exact (no_invalid_policy hvalid hsplit hinvalid).elim
  have hunsupported : PoliciesValid spec → ∀ before req after,
      spec.requirements = before ++ req :: after →
        (∀ r ∈ before, (verdictOf backend r).enforcement ≠ .unsupported) →
          (verdictOf backend req).enforcement = .unsupported →
            planWith codec backend spec = .error (.unsupported req backend.id) := by
    intro _ _ req _ hsplit _ hreq
    exact absurd hreq (hsupport req (hsplit ▸ List.mem_append_right _ List.mem_cons_self))
  have hbudget : ∀ digest refusal, budgetsOf backend spec digest = .error refusal →
      planWith codec backend spec =
        .error (.budgetRefused backend.id refusal.dimension refusal.failure) := by
    intro digest refusal hrefused
    rw [hresult]
    exact buildAdmittedPlan_budget hcodec hrefused
  cases hfate : budgetsOf backend spec 0 with
  | error refusal =>
      apply FailClosed.of_error (hbudget 0 refusal hfate)
      · intro detail hdetail
        cases hdetail
      · intro hall
        obtain ⟨budgets, hbudgets⟩ := hall.2.2.2 0
        rw [hfate] at hbudgets
        cases hbudgets
      · exact hpolicy
      · exact hunsupported
      · exact fun _ _ hnot => absurd hcovered hnot
      · exact fun _ _ _ => hbudget
  | ok budgets =>
      have hall : ∀ digest, ∃ budgets, budgetsOf backend spec digest = .ok budgets :=
        fun digest => (budgetsOf_sameFate 0 digest).ok hfate
      obtain ⟨plan, hplan⟩ := buildAdmittedPlan_admits hcodec hfate
      refine ⟨⟨fun _ => ⟨hvalid, hsupport, hcovered, hall⟩, fun _ => ⟨plan, hresult.trans hplan⟩⟩,
        hpolicy, hunsupported, fun _ _ hnot => absurd hcovered hnot, fun _ _ _ => hbudget, ?_, ?_⟩
      · intro detail hdetail
        rw [hresult, hplan] at hdetail
        cases hdetail
      · intro p hp
        rw [hresult] at hp
        have hentries := (buildAdmittedPlan_ok.mp hp).2.2.admitted
        rw [hentries, admittedRequirements, classifiedOf, classifyAll, List.map_map]
        rfl

theorem failClosed_of_valid (hcodec : codec.Writes) (hvalid : PoliciesValid spec)
    (hslots : SlotsSuffice backend spec) :
    FailClosed codec backend spec (planWith codec backend spec) := by
  rcases @reference_cases _ backend spec with
    ⟨hsupport, hcovered, trace, hreference⟩ | ⟨hsupport, trace, hreference⟩ |
      ⟨hsupport, hcovered, trace, hreference⟩
  · exact failClosed_of_covered hcodec hvalid hslots hsupport hcovered hreference
  · exact failClosed_of_unsupported hvalid hslots hsupport hreference
  · exact failClosed_of_uncovered hvalid hslots hsupport hcovered hreference

theorem planWith_failClosed_iff (hcodec : codec.Writes) :
    FailClosed codec backend spec (planWith codec backend spec) ↔ SlotsSuffice backend spec := by
  constructor
  · intro h hvalid
    by_contra hslots
    obtain ⟨detail, hdetail⟩ := planWith_diverges hvalid fun hall => hslots (hall hvalid)
    exact h.agreed detail hdetail
  · intro hslots
    by_cases hvalid : PoliciesValid spec
    · exact failClosed_of_valid hcodec hvalid hslots
    · exact failClosed_of_invalid hvalid

/-- For every spec and every registered backend, planning is the fail-closed contract exactly
while the lanes of the shadow circuit have slots of their own. -/
theorem plan_failClosed_iff (codec : PlanCodec) (hcodec : codec.Writes)
    (registry : BackendRegistry Profile) (id : BackendId) (backend : Backend Profile)
    (hbackend : registry.backend id = some backend) (spec : BoundarySpec) :
    FailClosed codec backend spec (plan codec registry spec id) ↔ SlotsSuffice backend spec := by
  unfold plan
  rw [hbackend]
  exact planWith_failClosed_iff hcodec

/-- The encoder with an answer for every value. -/
def writingCodec : PlanCodec :=
  { confinedCodec with
    fingerprintBytes := fun _ => .ok confinedFingerprintBytes
    budgetBytes := fun _ => .ok confinedProfileBytes }

theorem writingCodec_writes : writingCodec.Writes where
  fingerprint _ := ⟨_, rfl⟩
  budget _ := ⟨_, rfl⟩

theorem confinedRegistry_backend : confinedRegistry.backend "linux" = some confinedBackend := by
  unfold BackendRegistry.backend confinedRegistry BackendRegistry.register
  exact Std.ExtTreeMap.getElem?_insert_self

/-- A handful of requirements. -/
theorem confinedSpec_failClosed :
    FailClosed writingCodec confinedBackend confinedSpec
      (plan writingCodec confinedRegistry confinedSpec "linux") := by
  apply (plan_failClosed_iff writingCodec writingCodec_writes confinedRegistry "linux"
    confinedBackend confinedRegistry_backend confinedSpec).mpr
  intro _
  exact Or.inl (by decide)

/-- A request that lists the outputs `n` times. -/
def crowdedSpec (n : Nat) : BoundarySpec :=
  { confinedSpec with capabilities := [], controls := List.replicate n .listOutputs }

theorem length_crowdedSpec (n : Nat) : (crowdedSpec n).requirements.length = n := by
  simp [BoundarySpec.requirements, crowdedSpec]

theorem crowdedSpec_passes (n : Nat) :
    PoliciesValid (crowdedSpec n) ∧ Supported confinedBackend (crowdedSpec n) ∧
      EvidenceCovered confinedBackend (crowdedSpec n) := by
  refine ⟨?_, ?_, ?_⟩
  · intro policy hpolicy
    cases hpolicy
  · intro req _ h
    cases h
  · intro claim hclaim
    exact absurd hclaim (Finset.notMem_empty claim)

theorem crowdedSpec_slots {n : Nat} (hn : u16Max < n) :
    ¬ SlotsSuffice confinedBackend (crowdedSpec n) := by
  intro h
  have hslots := h (crowdedSpec_passes n).1
  rw [length_crowdedSpec] at hslots
  rcases hslots with hlt | ⟨heq, -⟩
  · exact Nat.lt_asymm hlt hn
  · exact Nat.ne_of_gt hn heq

/-- One requirement more than there are slots: every requirement is enforced and no evidence is
asked for, and the planner diverges. -/
theorem crowdedSpec_diverges :
    (PoliciesValid (crowdedSpec 65536) ∧ Supported confinedBackend (crowdedSpec 65536) ∧
        EvidenceCovered confinedBackend (crowdedSpec 65536)) ∧
      (∃ detail, plan writingCodec confinedRegistry (crowdedSpec 65536) "linux" =
        .error (.shadowDivergence detail)) ∧
      ¬ FailClosed writingCodec confinedBackend (crowdedSpec 65536)
        (plan writingCodec confinedRegistry (crowdedSpec 65536) "linux") := by
  have hslots : ¬ SlotsSuffice confinedBackend (crowdedSpec 65536) :=
    crowdedSpec_slots (by decide)
  have hplan : plan writingCodec confinedRegistry (crowdedSpec 65536) "linux" =
      planWith writingCodec confinedBackend (crowdedSpec 65536) := by
    unfold plan
    rw [confinedRegistry_backend]
  obtain ⟨detail, hdetail⟩ :=
    @planWith_diverges _ writingCodec _ _ (crowdedSpec_passes 65536).1 hslots
  rw [hplan]
  exact ⟨crowdedSpec_passes 65536, ⟨detail, hdetail⟩, fun h => h.agreed detail hdetail⟩

end Batpak.Bvisor
