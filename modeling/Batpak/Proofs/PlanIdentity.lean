/-
Module: Batpak.Proofs.PlanIdentity
Purpose: The identity of a plan does not depend on the order of the request, and it binds
  everything the plan was made from.
Trusted boundary: none
Main exports: sortAdmitted_perm, planWith_ok
-/
import Batpak.Proofs.PlannerCircuit

namespace Batpak.Bvisor

open Batpak.Util

variable {outcome : AdmissionOutcome} {classified : Classified}

/-! ### The membranes -/

theorem plannerTrace_perm {inputs inputs' : PlannerInputs}
    (henforcement : inputs'.enforcement.Perm inputs.enforcement)
    (hrequired : inputs'.evidenceRequired = inputs.evidenceRequired)
    (havailable : inputs'.evidenceAvailable = inputs.evidenceAvailable) :
    plannerTrace inputs' = plannerTrace inputs := by
  unfold plannerTrace
  rw [hrequired, havailable, henforcement.all_eq]

/-- The check answers the same for the codes in another order, whatever their number. -/
theorem plannerShadowCheck_perm {inputs inputs' : PlannerInputs}
    (henforcement : inputs'.enforcement.Perm inputs.enforcement)
    (hrequired : inputs'.evidenceRequired = inputs.evidenceRequired)
    (havailable : inputs'.evidenceAvailable = inputs.evidenceAvailable)
    (h : plannerShadowCheck inputs = .ok outcome) : plannerShadowCheck inputs' = .ok outcome := by
  obtain ⟨houtcome, hn, hagree⟩ := plannerShadowCheck_ok.mp h
  have hread : evidenceRead inputs' = evidenceRead inputs := by
    unfold evidenceRead
    rw [henforcement.length_eq, hrequired, havailable]
  have hreference : plannerReference inputs' = plannerReference inputs := by
    unfold plannerReference
    rw [plannerTrace_perm henforcement hrequired havailable]
  have hcircuit : plannerReference { inputs' with evidenceAvailable := evidenceRead inputs' } =
      plannerReference { inputs with evidenceAvailable := evidenceRead inputs } := by
    unfold plannerReference
    congr 1
    exact plannerTrace_perm henforcement hrequired hread
  apply plannerShadowCheck_ok.mpr
  refine ⟨?_, ?_, ?_⟩
  · rw [houtcome, hreference]
  · rw [henforcement.length_eq]
    exact hn
  · rw [hcircuit, hreference, hagree]

theorem mem_availableEvidence {claim : EvidenceClaim} :
    claim ∈ availableEvidence classified ↔ ∃ c ∈ classified, claim ∈ c.2.evidence := by
  have hfold : ∀ start : EvidenceSet,
      claim ∈ classified.foldl (fun available c => available ∪ c.2.evidence) start ↔
        claim ∈ start ∨ ∃ c ∈ classified, claim ∈ c.2.evidence := by
    induction classified with
    | nil => simp
    | cons c rest ih =>
        intro start
        rw [List.foldl_cons, ih]
        simp [or_assoc]
  rw [availableEvidence, hfold]
  simp

theorem availableEvidence_perm {classified' : Classified} (h : classified'.Perm classified) :
    availableEvidence classified' = availableEvidence classified := by
  ext claim
  rw [mem_availableEvidence, mem_availableEvidence]
  simp only [h.mem_iff]

theorem plannerInputs_perm {classified' : Classified} {required : EvidenceSet}
    (hperm : classified'.Perm classified)
    (h : plannerShadowCheck (plannerInputs classified required) = .ok outcome) :
    plannerShadowCheck (plannerInputs classified' required) = .ok outcome := by
  have henforcement : (plannerInputs classified' required).enforcement.Perm
      (plannerInputs classified required).enforcement := hperm.map _
  have havailable : (plannerInputs classified' required).evidenceAvailable =
      (plannerInputs classified required).evidenceAvailable :=
    congrArg evidenceBits (availableEvidence_perm hperm)
  exact plannerShadowCheck_perm henforcement rfl havailable h

/-! ### The gate on policies -/

theorem validateCapabilityPolicies_ok {codec : PlanCodec} {capabilities : List Capability} :
    validateCapabilityPolicies codec capabilities = .ok () ↔
      ∀ policy, .environment policy ∈ capabilities → policy.validate = .ok () := by
  induction capabilities with
  | nil => simp [validateCapabilityPolicies]
  | cons capability rest ih =>
      cases capability with
      | environment policy =>
          rw [validateCapabilityPolicies, bindOk_iff]
          simp only [mapError_ok_iff, ih, List.mem_cons, Capability.environment.injEq]
          constructor
          · intro h p hp
            obtain ⟨⟨⟩, hfirst, hrest⟩ := h
            rcases hp with rfl | hp
            · exact hfirst
            · exact hrest p hp
          · intro h
            exact ⟨(), h policy (Or.inl rfl), fun p hp => h p (Or.inr hp)⟩
      | filesystem _ _ _ _ => simpa [validateCapabilityPolicies] using ih
      | network _ => simpa [validateCapabilityPolicies] using ih
      | childSpawn _ => simpa [validateCapabilityPolicies] using ih
      | inheritedFds _ => simpa [validateCapabilityPolicies] using ih

/-! ### Derived minimums -/

/-- Handles of captured streams. -/
def streamHandles : HostControl → BitVec 64
  | .captureStreams streams =>
      BitVec.ofNat 64 streams.stdout.toNat + BitVec.ofNat 64 streams.stderr.toNat +
        BitVec.ofNat 64 streams.stdin.toNat
  | _ => 0

/-- Whether a control needs storage. -/
def needsStorage : HostControl → Bool
  | .tempRoot _ => true
  | .commitArtifact _ => true
  | .exposePath _ _ access _ => access ≠ .read
  | _ => false

theorem controlMinimums_eq (minimums : DerivedMinimums) (control : HostControl) :
    controlMinimums minimums control =
      { minimums with
        handleCount := minimums.handleCount + streamHandles control
        storageBytes := if needsStorage control then atLeast minimums.storageBytes 1
          else minimums.storageBytes } := by
  cases control with
  | exposePath _ _ access _ =>
      cases access with
      | read => simp [controlMinimums, streamHandles, needsStorage]
      | write => simp [controlMinimums, streamHandles, needsStorage]
      | readWrite => simp [controlMinimums, streamHandles, needsStorage]
  | launchWorkload => simp [controlMinimums, streamHandles, needsStorage]
  | captureStreams _ => simp [controlMinimums, streamHandles, needsStorage]
  | tempRoot _ => simp [controlMinimums, streamHandles, needsStorage]
  | commitArtifact _ => simp [controlMinimums, streamHandles, needsStorage]
  | discardArtifact => simp [controlMinimums, streamHandles, needsStorage]
  | kill _ _ => simp [controlMinimums, streamHandles, needsStorage]
  | listOutputs => simp [controlMinimums, streamHandles, needsStorage]

/-- Inherited handles. -/
def inheritedHandles : Capability → BitVec 64
  | .inheritedFds (.only fds) => BitVec.ofNat 64 (min fds.length usizeMax)
  | _ => 0

/-- Whether a capability lets the workload start tasks. -/
def startsTasks : Capability → Bool
  | .childSpawn policy => policy ≠ .denyNewTasks
  | _ => false

/-- Whether a capability opens the network. -/
def opensNetwork : Capability → Bool
  | .network (.allowList _) => true
  | _ => false

theorem capabilityMinimums_eq (minimums : DerivedMinimums) (capability : Capability) :
    capabilityMinimums minimums capability =
      { minimums with
        processCount := if startsTasks capability then atLeast minimums.processCount 2
          else minimums.processCount
        handleCount := minimums.handleCount + inheritedHandles capability
        networkBytes := if opensNetwork capability then atLeast minimums.networkBytes 1
          else minimums.networkBytes } := by
  cases capability with
  | filesystem _ _ _ _ =>
      simp [capabilityMinimums, startsTasks, inheritedHandles, opensNetwork]
  | environment _ => simp [capabilityMinimums, startsTasks, inheritedHandles, opensNetwork]
  | network policy =>
      cases policy with
      | denyAll => simp [capabilityMinimums, startsTasks, inheritedHandles, opensNetwork]
      | allowList _ => simp [capabilityMinimums, startsTasks, inheritedHandles, opensNetwork]
  | childSpawn policy =>
      cases policy with
      | denyNewTasks => simp [capabilityMinimums, startsTasks, inheritedHandles, opensNetwork]
      | allowThreadsWithinBoundary =>
          simp [capabilityMinimums, startsTasks, inheritedHandles, opensNetwork]
      | allowDescendantsWithinBoundary =>
          simp [capabilityMinimums, startsTasks, inheritedHandles, opensNetwork]
  | inheritedFds policy =>
      cases policy with
      | none => simp [capabilityMinimums, startsTasks, inheritedHandles, opensNetwork]
      | only _ => simp [capabilityMinimums, startsTasks, inheritedHandles, opensNetwork]

/-- Raising a value to the same floor commutes with itself. -/
theorem ite_atLeast_comm (p q : Bool) (value least : BitVec 64) :
    (if q then atLeast (if p then atLeast value least else value) least
      else if p then atLeast value least else value) =
    if p then atLeast (if q then atLeast value least else value) least
      else if q then atLeast value least else value := by
  cases p with
  | false => simp
  | true =>
      cases q with
      | false => simp
      | true => rfl

theorem handles_comm (value first second : BitVec 64) :
    value + first + second = value + second + first := by
  rw [BitVec.add_assoc, BitVec.add_comm first, ← BitVec.add_assoc]

instance : RightCommutative controlMinimums where
  right_comm m a b := by
    simp only [controlMinimums_eq]
    rw [handles_comm, ite_atLeast_comm]

instance : RightCommutative capabilityMinimums where
  right_comm m a b := by
    simp only [capabilityMinimums_eq]
    rw [handles_comm, ite_atLeast_comm (startsTasks a), ite_atLeast_comm (opensNetwork a)]

theorem deriveMinimums_perm {spec : BoundarySpec} {capabilities : List Capability}
    {controls : List HostControl} (hcapabilities : capabilities.Perm spec.capabilities)
    (hcontrols : controls.Perm spec.controls) :
    deriveMinimums { spec with capabilities := capabilities, controls := controls } =
      deriveMinimums spec := by
  have hlaunch : launchMinimums controls = launchMinimums spec.controls := by
    unfold launchMinimums
    simp only [hcontrols.mem_iff]
  unfold deriveMinimums
  rw [hlaunch, hcontrols.foldl_eq, hcapabilities.foldl_eq]

/-! ### The fingerprint -/

/-- Entries whose renderings determine them sort the same from any order. -/
theorem sortAdmitted_perm {codec : PlanCodec} {admitted admitted' : List AdmittedRequirement}
    (h : admitted'.Perm admitted) (hdetermined : ∀ a ∈ admitted, ∀ b ∈ admitted,
      codec.debugRequirement a.requirement = codec.debugRequirement b.requirement → a = b) :
    sortAdmitted codec admitted' = sortAdmitted codec admitted := by
  have hperm : (sortAdmitted codec admitted').Perm (sortAdmitted codec admitted) :=
    (List.perm_insertionSort _ _).trans (h.trans (List.perm_insertionSort _ _).symm)
  have hsorted : ∀ entries, (sortAdmitted codec entries).Pairwise fun a b =>
      codec.debugRequirement a.requirement ≤ codec.debugRequirement b.requirement := by
    intro entries
    have htotal : Std.Total fun a b : AdmittedRequirement =>
        codec.debugRequirement a.requirement ≤ codec.debugRequirement b.requirement :=
      ⟨fun a b => le_total _ _⟩
    have htrans : IsTrans AdmittedRequirement fun a b =>
        codec.debugRequirement a.requirement ≤ codec.debugRequirement b.requirement :=
      ⟨fun a b c => le_trans⟩
    exact List.pairwise_insertionSort _ entries
  apply hperm.eq_of_pairwise _ (hsorted admitted') (hsorted admitted)
  intro a b ha hb hab hba
  have ha' : a ∈ admitted := h.mem_iff.mp ((List.mem_insertionSort _).mp ha)
  have hb' : b ∈ admitted := (List.mem_insertionSort _).mp hb
  exact hdetermined a ha' b hb' (le_antisymm hab hba)

theorem EvidenceRequirements.debug_injective :
    Function.Injective EvidenceRequirements.debug := by
  rintro ⟨a, b⟩ ⟨c, d⟩ h
  revert h
  cases a <;> cases b <;> cases c <;> cases d <;> decide

/-! ### Planning -/

section Planning

variable {Profile : Type} {codec : PlanCodec} {backend : Backend Profile} {spec : BoundarySpec}
  {plan : BoundaryPlan}

/-- The fields of a plan that are taken over from the backend and the spec. -/
structure CarriedFrom (backend : Backend Profile) (snapshot : BackendProfileSnapshot)
    (classified : Classified) (spec : BoundarySpec) (plan : BoundaryPlan) : Prop where
  schemaVersion : plan.schemaVersion = boundaryPlanSchemaVersion
  backendId : plan.backend = backend.id
  profile : plan.profile = snapshot
  admitted : plan.admitted = admittedRequirements backend classified
  workload : plan.workload = spec.workload
  evidence : plan.evidence = spec.evidence

/-- What the planner was given and what it derived, for an admitted plan. -/
structure PlannedFrom (codec : PlanCodec) (backend : Backend Profile) (spec : BoundarySpec)
    (plan : BoundaryPlan) : Prop where
  policies : validateCapabilityPolicies codec spec.capabilities = .ok ()
  membranes : ∃ trace, plannerShadowCheck (plannerInputs
    (classifyAll backend (backend.profile backend.probe) spec) spec.evidence.requiredClaims) =
      .ok (.admitted trace)
  budgets : ∃ digest, budgetProfileDigest codec backend.probe = .ok digest ∧
    budgetAdmit spec.budgets backend.probe.budget (deriveMinimums spec) digest = .ok plan.budgets
  identity : computePlanId codec backend.id backend.probe plan.admitted spec plan.budgets =
    .ok plan.planId
  carried : CarriedFrom backend backend.probe
    (classifyAll backend (backend.profile backend.probe) spec) spec plan

theorem buildAdmittedPlan_ok {snapshot : BackendProfileSnapshot} :
    buildAdmittedPlan codec backend snapshot classified spec = .ok plan ↔
      (∃ digest, budgetProfileDigest codec snapshot = .ok digest ∧
        budgetAdmit spec.budgets snapshot.budget (deriveMinimums spec) digest =
          .ok plan.budgets) ∧
      computePlanId codec backend.id snapshot plan.admitted spec plan.budgets = .ok plan.planId ∧
      CarriedFrom backend snapshot classified spec plan := by
  unfold buildAdmittedPlan
  simp only [bindOk_iff, mapError_ok_iff]
  constructor
  · rintro ⟨digest, hdigest, budgets, hbudgets, id, hid, h⟩
    cases h
    exact ⟨⟨digest, hdigest, hbudgets⟩, hid, ⟨rfl, rfl, rfl, rfl, rfl, rfl⟩⟩
  · rintro ⟨⟨digest, hdigest, hbudgets⟩, hid, hcarried⟩
    rw [hcarried.admitted] at hid
    refine ⟨digest, hdigest, plan.budgets, hbudgets, plan.planId, hid, congrArg Except.ok ?_⟩
    rw [← hcarried.schemaVersion, ← hcarried.backendId, ← hcarried.profile, ← hcarried.admitted,
      ← hcarried.workload, ← hcarried.evidence]

theorem settleOutcome_ok {snapshot : BackendProfileSnapshot}
    (h : settleOutcome codec backend snapshot classified spec outcome = .ok plan) :
    (∃ trace, outcome = .admitted trace) ∧
      buildAdmittedPlan codec backend snapshot classified spec = .ok plan := by
  unfold settleOutcome at h
  split at h
  · exact ⟨⟨_, rfl⟩, h⟩
  · split at h
    · cases h
    · cases h
  · cases h
  · cases h

theorem planWith_ok : planWith codec backend spec = .ok plan ↔
    PlannedFrom codec backend spec plan := by
  unfold planWith
  simp only [bindOk_iff, mapError_ok_iff]
  constructor
  · rintro ⟨⟨⟩, hpolicies, outcome, houtcome, h⟩
    obtain ⟨⟨trace, rfl⟩, hbuild⟩ := settleOutcome_ok h
    obtain ⟨hbudgets, hid, hcarried⟩ := buildAdmittedPlan_ok.mp hbuild
    exact ⟨hpolicies, ⟨trace, houtcome⟩, hbudgets, hid, hcarried⟩
  · intro h
    obtain ⟨trace, htrace⟩ := h.membranes
    exact ⟨(), h.policies, .admitted trace, htrace,
      buildAdmittedPlan_ok.mpr ⟨h.budgets, h.identity, h.carried⟩⟩

theorem plan_ok {registry : BackendRegistry Profile} {id : BackendId}
    (h : Bvisor.plan codec registry spec id = .ok plan) :
    ∃ backend, registry.backend id = some backend ∧ PlannedFrom codec backend spec plan := by
  unfold Bvisor.plan at h
  cases hfound : registry.backend id with
  | none =>
      rw [hfound] at h
      cases h
  | some backend =>
      rw [hfound] at h
      exact ⟨backend, rfl, planWith_ok.mp h⟩

/-- The derived renderings and the canonical encoder tell their arguments apart. -/
structure PlanCodec.Injective (codec : PlanCodec) : Prop where
  bytes : ∀ {f g : PlanFingerprint} {b : List (BitVec 8)}, codec.fingerprintBytes f = .ok b →
    codec.fingerprintBytes g = .ok b → f = g
  requirement : Function.Injective codec.debugRequirement
  workload : Function.Injective codec.debugWorkload
  request : Function.Injective codec.debugRequest
  admitted : Function.Injective codec.debugAdmitted

theorem classifyAll_perm {profile : Profile} {capabilities : List Capability}
    {controls : List HostControl} (hcapabilities : capabilities.Perm spec.capabilities)
    (hcontrols : controls.Perm spec.controls) :
    (classifyAll backend profile
      { spec with capabilities := capabilities, controls := controls }).Perm
        (classifyAll backend profile spec) := by
  apply List.Perm.map
  exact (hcapabilities.map _).append (hcontrols.map _)

/-- The entry of a requirement is a function of the requirement. -/
theorem admittedRequirements_determined {profile : Profile} {a b : AdmittedRequirement}
    (ha : a ∈ admittedRequirements backend (classifyAll backend profile spec))
    (hb : b ∈ admittedRequirements backend (classifyAll backend profile spec))
    (h : a.requirement = b.requirement) : a = b := by
  have hentry : ∀ e ∈ admittedRequirements backend (classifyAll backend profile spec),
      e = ⟨e.requirement, (backend.classify e.requirement profile).enforcement,
        backend.mechanism e.requirement (backend.classify e.requirement profile).enforcement⟩ := by
    intro e he
    obtain ⟨c, hc, rfl⟩ := List.mem_map.mp he
    obtain ⟨req, -, rfl⟩ := List.mem_map.mp hc
    rfl
  rw [hentry a ha, hentry b hb, h]

/-- A permuted request plans with the same identity. -/
theorem PlannedFrom.permute (hcodec : codec.Injective) (h : PlannedFrom codec backend spec plan)
    {capabilities : List Capability} {controls : List HostControl}
    (hcapabilities : capabilities.Perm spec.capabilities)
    (hcontrols : controls.Perm spec.controls) :
    PlannedFrom codec backend { spec with capabilities := capabilities, controls := controls }
      { plan with
        admitted := admittedRequirements backend
          (classifyAll backend (backend.profile backend.probe)
            { spec with capabilities := capabilities, controls := controls }) } := by
  have hclassified := @classifyAll_perm _ backend spec (backend.profile backend.probe) _ _
    hcapabilities hcontrols
  have hadmitted := h.carried.admitted
  refine ⟨?_, ?_, ?_, ?_, ?_⟩
  · rw [validateCapabilityPolicies_ok]
    intro policy hpolicy
    exact validateCapabilityPolicies_ok.mp h.policies policy (hcapabilities.mem_iff.mp hpolicy)
  · obtain ⟨trace, htrace⟩ := h.membranes
    exact ⟨trace, plannerInputs_perm hclassified htrace⟩
  · rw [deriveMinimums_perm hcapabilities hcontrols]
    exact h.budgets
  · have hsame : sortAdmitted codec (admittedRequirements backend
        (classifyAll backend (backend.profile backend.probe)
          { spec with capabilities := capabilities, controls := controls })) =
        sortAdmitted codec plan.admitted := by
      rw [hadmitted]
      apply sortAdmitted_perm (hclassified.map _)
      intro a ha b hb heq
      exact admittedRequirements_determined ha hb (hcodec.requirement heq)
    have hid := h.identity
    unfold computePlanId planFingerprint at hid ⊢
    dsimp only at hid ⊢
    rw [hsame]
    exact hid
  · exact ⟨h.carried.schemaVersion, h.carried.backendId, h.carried.profile, rfl, h.carried.workload,
      h.carried.evidence⟩

/-- The canonical bytes of the fingerprint a plan's identity is the hash of. -/
def planBytes (codec : PlanCodec) (spec : BoundarySpec) (plan : BoundaryPlan) :
    Except String (List (BitVec 8)) :=
  codec.fingerprintBytes
    (planFingerprint codec plan.backend plan.profile plan.admitted spec plan.budgets)

theorem PlannedFrom.hash_bytes (h : PlannedFrom codec backend spec plan) :
    ∃ bytes, planBytes codec spec plan = .ok bytes ∧ codec.hash bytes = plan.planId := by
  obtain ⟨bytes, hbytes, hid⟩ := bindOk_iff.mp h.identity
  refine ⟨bytes, ?_, Except.ok.inj hid⟩
  unfold planBytes
  rw [h.carried.backendId, h.carried.profile]
  exact hbytes

end Planning

/-- Planning does not depend on the order of the request, and identity binds what was planned.
Permuting the capabilities and the controls of a spec that plans, repetitions included, still
plans and gives the same id. Two plans with one id, of any specs and registries, agree on the
backend, the probed profile, the workload, the budget request, the admitted budgets, the
evidence requirements and the admitted entries up to their order, unless the hash collides on
the bytes of the two. -/
theorem planId_order_insensitive_and_binding {Profile Profile' : Type} (codec : PlanCodec)
    (hcodec : codec.Injective) :
    (∀ (registry : BackendRegistry Profile) (spec : BoundarySpec) (id : BackendId)
        (p : BoundaryPlan) (capabilities : List Capability) (controls : List HostControl),
      plan codec registry spec id = .ok p → capabilities.Perm spec.capabilities →
      controls.Perm spec.controls →
      ∃ p', plan codec registry { spec with capabilities := capabilities, controls := controls }
        id = .ok p' ∧ p'.planId = p.planId) ∧
    (∀ (registry : BackendRegistry Profile) (registry' : BackendRegistry Profile')
        (spec spec' : BoundarySpec) (id id' : BackendId) (p p' : BoundaryPlan),
      plan codec registry spec id = .ok p → plan codec registry' spec' id' = .ok p' →
      (∀ b b', planBytes codec spec p = .ok b → planBytes codec spec' p' = .ok b' →
        codec.hash b = codec.hash b' → b = b') →
      p.planId = p'.planId →
      p.backend = p'.backend ∧ p.profile = p'.profile ∧ p.workload = p'.workload ∧
        spec.budgets = spec'.budgets ∧ p.budgets = p'.budgets ∧ p.evidence = p'.evidence ∧
        p.admitted.Perm p'.admitted) := by
  constructor
  · intro registry spec id p capabilities controls h hcapabilities hcontrols
    obtain ⟨backend, hfound, hplanned⟩ := plan_ok h
    have hpermuted := planWith_ok.mpr (hplanned.permute hcodec hcapabilities hcontrols)
    obtain ⟨p', hp', hid⟩ : ∃ p', planWith codec backend
        { spec with capabilities := capabilities, controls := controls } = .ok p' ∧
          p'.planId = p.planId := ⟨_, hpermuted, rfl⟩
    refine ⟨p', ?_, hid⟩
    unfold plan
    rw [hfound]
    exact hp'
  · intro registry registry' spec spec' id id' p p' h h' hcollision hsame
    obtain ⟨backend, -, hplanned⟩ := plan_ok h
    obtain ⟨backend', -, hplanned'⟩ := plan_ok h'
    obtain ⟨b, hb, hhash⟩ := hplanned.hash_bytes
    obtain ⟨b', hb', hhash'⟩ := hplanned'.hash_bytes
    have hbytes : b = b' := hcollision b b' hb hb' (by rw [hhash, hhash', hsame])
    subst hbytes
    have hprint := hcodec.bytes hb hb'
    have hsorted : sortAdmitted codec p.admitted = sortAdmitted codec p'.admitted :=
      congrArg PlanFingerprint.admitted hprint
    refine ⟨congrArg PlanFingerprint.backend hprint, congrArg PlanFingerprint.snapshot hprint, ?_,
      hcodec.request (congrArg PlanFingerprint.budgetRequest hprint),
      hcodec.admitted (congrArg PlanFingerprint.admittedBudgets hprint), ?_, ?_⟩
    · rw [hplanned.carried.workload, hplanned'.carried.workload]
      exact hcodec.workload (congrArg PlanFingerprint.workload hprint)
    · rw [hplanned.carried.evidence, hplanned'.carried.evidence]
      exact EvidenceRequirements.debug_injective (congrArg PlanFingerprint.evidence hprint)
    · have hperm := (List.perm_insertionSort (fun a b : AdmittedRequirement =>
        codec.debugRequirement a.requirement ≤ codec.debugRequirement b.requirement) p.admitted)
      have hperm' := (List.perm_insertionSort (fun a b : AdmittedRequirement =>
        codec.debugRequirement a.requirement ≤ codec.debugRequirement b.requirement) p'.admitted)
      unfold sortAdmitted at hsorted
      rw [hsorted] at hperm
      exact hperm.symm.trans hperm'

/-! ### A plan -/

/-- Renderings that are known for some values and tell every other one apart. -/
def renderBy {α : Type} [Encodable α] [DecidableEq α] (known : List (α × String)) (a : α) : String :=
  match known.find? fun entry => entry.1 = a with
  | some entry => entry.2
  | none => String.ofList (List.replicate (Encodable.encode a) '.')

theorem renderBy_injective {α : Type} [Encodable α] [DecidableEq α] {known : List (α × String)}
    (htexts : (known.map Prod.snd).Nodup)
    (hmarked : ∀ entry ∈ known, ∃ c, entry.2.toList.head? = some c ∧ c ≠ '.') :
    Function.Injective (renderBy known) := by
  have hfallback : ∀ entry ∈ known, ∀ n : Nat, entry.2 ≠ String.ofList (List.replicate n '.') := by
    intro entry hentry n heq
    have hlist : entry.2.toList = List.replicate n '.' := by rw [heq, String.toList_ofList]
    obtain ⟨c, hc, hne⟩ := hmarked entry hentry
    rw [hlist] at hc
    cases n with
    | zero => cases hc
    | succ n =>
        cases hc
        exact hne rfl
  intro a b h
  unfold renderBy at h
  cases ha : known.find? fun entry => entry.1 = a with
  | none =>
      cases hb : known.find? fun entry => entry.1 = b with
      | none =>
          rw [ha, hb] at h
          have hcount := congrArg (fun text : String => text.toList.length) h
          simp only [String.toList_ofList, List.length_replicate] at hcount
          exact Encodable.encode_injective hcount
      | some entry =>
          rw [ha, hb] at h
          exact absurd h.symm (hfallback entry (List.mem_of_find?_eq_some hb) _)
  | some entry =>
      have hentry : entry.1 = a := by simpa using List.find?_some ha
      cases hb : known.find? fun entry => entry.1 = b with
      | none =>
          rw [ha, hb] at h
          exact absurd h (hfallback entry (List.mem_of_find?_eq_some ha) _)
      | some other =>
          have hother : other.1 = b := by simpa using List.find?_some hb
          rw [ha, hb] at h
          have hsame := List.inj_on_of_nodup_map htexts (List.mem_of_find?_eq_some ha)
            (List.mem_of_find?_eq_some hb) h
          rw [← hentry, ← hother, hsame]

theorem renderBy_singleton_injective {α : Type} [Encodable α] [DecidableEq α] {a : α}
    {text : String} {c : Char} (hhead : text.toList.head? = some c) (hc : c ≠ '.') :
    Function.Injective (renderBy [(a, text)]) := by
  have hnodup : ([(a, text)].map Prod.snd).Nodup := List.nodup_singleton text
  apply renderBy_injective hnodup
  intro entry hentry
  rw [List.mem_singleton.mp hentry]
  exact ⟨c, hhead, hc⟩

instance encodableChar : Encodable Char :=
  Encodable.ofLeftInjection Char.toNat (fun n => some (Char.ofNat n)) fun c => by
    simp

instance encodableString : Encodable String :=
  Encodable.ofLeftInjection String.toList (fun chars => some (String.ofList chars)) fun s => by
    simp

instance encodableBitVec (w : Nat) : Encodable (BitVec w) :=
  Encodable.ofLeftInjection BitVec.toNat (fun n => some (BitVec.ofNat w n)) fun v => by
    simp

deriving instance Encodable for FsAccess, FsConfinement, PathSet, NetDest, NetPolicy, SpawnPolicy,
  FdPolicy, SecretRef, EnvSource, EnvEntry, EnvPolicy, Capability, PathView, CommitDurability,
  KillTarget, KillGuarantee, StdStreams, HostControl, BoundaryRequirement, Workload, EvidenceClaim,
  MinGuarantee, Enforcement, BudgetRequest, BudgetRequirements, AdmittedBudget, AdmittedBudgets

/-- MessagePack of a short text, of a text of up to 64 KiB, and of small maps and arrays. -/
def packText (text : String) : List (BitVec 8) :=
  let bytes := text.toList.map fun c => BitVec.ofNat 8 c.toNat
  if bytes.length < 32 then BitVec.ofNat 8 (0xa0 + bytes.length) :: bytes
  else if bytes.length < 256 then 0xd9 :: BitVec.ofNat 8 bytes.length :: bytes
  else 0xda :: BitVec.ofNat 8 (bytes.length / 256) :: BitVec.ofNat 8 bytes.length :: bytes

def packMap (fields : List (String × List (BitVec 8))) : List (BitVec 8) :=
  BitVec.ofNat 8 (0x80 + fields.length) :: fields.flatMap fun field => packText field.1 ++ field.2

def packArray (items : List (List (BitVec 8))) : List (BitVec 8) :=
  BitVec.ofNat 8 (0x90 + items.length) :: items.flatten

def dimensionNames : List String :=
  ["wall_micros", "cpu_micros", "resident_bytes", "process_count", "handle_count",
    "storage_bytes", "network_bytes"]

/-- The derived rendering of a record with one value in all dimensions. -/
def debugDimensions (name value : String) : String :=
  name ++ " \x7b " ++ String.intercalate ", " (dimensionNames.map (· ++ ": " ++ value)) ++ " \x7d"

def confinedAvailability : BudgetAvailability :=
  ⟨10, .enforced, ∅, "cgroup"⟩

def confinedProfile : BudgetProfile :=
  ⟨confinedAvailability, confinedAvailability, confinedAvailability, confinedAvailability,
    confinedAvailability, confinedAvailability, confinedAvailability⟩

def confinedProfileBytes : List (BitVec 8) :=
  packMap (dimensionNames.map fun name => (name, packMap [("available", [10]),
    ("enforcement", packText "Enforced"), ("evidence", packArray []),
    ("mechanism", packText "cgroup")]))

def confinedProfileDigest : Digest32 :=
  0xe9c30af425982038cba47795123455f9779ab37ace19cca4adde8a24eb4bfaef

def confinedRequest : BudgetRequirements :=
  ⟨⟨5, .mediated, ∅⟩, ⟨5, .mediated, ∅⟩, ⟨5, .mediated, ∅⟩, ⟨5, .mediated, ∅⟩, ⟨5, .mediated, ∅⟩,
    ⟨5, .mediated, ∅⟩, ⟨5, .mediated, ∅⟩⟩

def confinedBudget : AdmittedBudget :=
  ⟨5, .mediated, .enforced, ∅, ∅, "cgroup", confinedProfileDigest⟩

def confinedBudgets : AdmittedBudgets :=
  ⟨confinedBudget, confinedBudget, confinedBudget, confinedBudget, confinedBudget, confinedBudget,
    confinedBudget⟩

def confinedRequestText : String :=
  debugDimensions "BudgetRequirements"
    "BudgetRequest \x7b limit: 5, guarantee: Mediated, evidence: EvidenceSet(\x7b\x7d) \x7d"

def confinedBudgetsText : String :=
  debugDimensions "AdmittedBudgets" ("AdmittedBudget \x7b effective_limit: 5, " ++
    "required_guarantee: Mediated, selected_guarantee: Enforced, " ++
    "required_evidence: EvidenceSet(\x7b\x7d), promised_evidence: EvidenceSet(\x7b\x7d), " ++
    "mechanism: \"cgroup\", profile_digest: [233, 195, 10, 244, 37, 152, 32, 56, 203, 164, 119, " ++
    "149, 18, 52, 85, 249, 119, 154, 179, 122, 206, 25, 204, 164, 173, 222, 138, 36, 235, 75, " ++
    "250, 239] \x7d")

def confinedWorkload : Workload :=
  .process "/bin/true" []

def confinedSnapshot : BackendProfileSnapshot :=
  ⟨"linux", ∅, confinedProfile⟩

/-- A backend that enforces everything. -/
def confinedBackend : Backend Unit where
  id := "linux"
  probe := confinedSnapshot
  profile _ := ()
  classify _ _ := ⟨.enforced, ∅⟩
  mechanism _ _ := "cgroup"

def confinedSpec : BoundarySpec where
  workload := confinedWorkload
  capabilities := [.network .denyAll, .childSpawn .denyNewTasks]
  controls := [.launchWorkload, .listOutputs, .launchWorkload]
  budgets := confinedRequest
  evidence := {}

/-- The renderings of the requirements with their MessagePack, in the order of the
renderings. -/
def confinedRequirements : List (BoundaryRequirement × String × List (BitVec 8)) :=
  [(.capability (.childSpawn .denyNewTasks),
      "Capability(ChildSpawn \x7b policy: DenyNewTasks \x7d)",
      packMap [("Capability", packMap [("ChildSpawn", packMap [("policy",
        packText "DenyNewTasks")])])]),
    (.capability (.network .denyAll), "Capability(Network \x7b policy: DenyAll \x7d)",
      packMap [("Capability", packMap [("Network", packMap [("policy", packText "DenyAll")])])]),
    (.hostControl .launchWorkload, "HostControl(LaunchWorkload)",
      packMap [("HostControl", packText "LaunchWorkload")]),
    (.hostControl .listOutputs, "HostControl(ListOutputs)",
      packMap [("HostControl", packText "ListOutputs")])]

/-- The sorted requirements of the spec, one of them twice. -/
def confinedSorted : List (BoundaryRequirement × String × List (BitVec 8)) :=
  confinedRequirements.take 3 ++ confinedRequirements.drop 2

def confinedFingerprint : PlanFingerprint where
  schemaVersion := 1
  backend := "linux"
  snapshot := confinedSnapshot
  admitted := confinedSorted.map fun entry => ⟨entry.1, .enforced, "cgroup"⟩
  workload := "Process \x7b exe: \"/bin/true\", args: [] \x7d"
  budgetRequest := confinedRequestText
  admittedBudgets := confinedBudgetsText
  evidence := "EvidenceRequirements \x7b require_captured_streams: false, " ++
    "require_exit_status: false \x7d"

def confinedFingerprintBytes : List (BitVec 8) :=
  packMap [("schema_version", [1]), ("backend", packText "linux"),
    ("snapshot", packMap [("backend", packText "linux"), ("probed", packMap []),
      ("budget", confinedProfileBytes)]),
    ("admitted", packArray (confinedSorted.map fun entry => packMap [("requirement", entry.2.2),
      ("enforcement", packText "Enforced"), ("mechanism", packText "cgroup")])),
    ("workload", packText confinedFingerprint.workload),
    ("budget_request", packText confinedFingerprint.budgetRequest),
    ("admitted_budgets", packText confinedFingerprint.admittedBudgets),
    ("evidence", packText confinedFingerprint.evidence)]

/-- The hash, the encoder and the renderings on what this spec needs of them. -/
def confinedCodec : PlanCodec where
  hash bytes :=
    if bytes = confinedProfileBytes then confinedProfileDigest
    else 0x0dda7cbff2593d37578200ea5d08d57ec470dbddcc879f8dcc8918fba27628ae
  fingerprintBytes fingerprint :=
    if fingerprint = confinedFingerprint then .ok confinedFingerprintBytes
    else .error "another fingerprint"
  budgetBytes profile :=
    if profile = confinedProfile then .ok confinedProfileBytes else .error "another profile"
  debugString text := "\"" ++ text ++ "\""
  debugRequirement := renderBy (confinedRequirements.map fun entry => (entry.1, entry.2.1))
  debugWorkload := renderBy [(confinedWorkload, confinedFingerprint.workload)]
  debugRequest := renderBy [(confinedRequest, confinedRequestText)]
  debugAdmitted := renderBy [(confinedBudgets, confinedBudgetsText)]

def confinedPlan : BoundaryPlan where
  schemaVersion := 1
  planId := 0x0dda7cbff2593d37578200ea5d08d57ec470dbddcc879f8dcc8918fba27628ae
  backend := "linux"
  profile := confinedSnapshot
  admitted := confinedSpec.requirements.map fun req => ⟨req, .enforced, "cgroup"⟩
  workload := confinedWorkload
  budgets := confinedBudgets
  evidence := {}

theorem confinedCodec_bytes {f : PlanFingerprint} {b : List (BitVec 8)}
    (h : confinedCodec.fingerprintBytes f = .ok b) :
    f = confinedFingerprint ∧ b = confinedFingerprintBytes := by
  by_cases hf : f = confinedFingerprint
  · have hok : confinedCodec.fingerprintBytes f = .ok confinedFingerprintBytes := if_pos hf
    rw [hok] at h
    cases h
    exact ⟨hf, rfl⟩
  · have herror : confinedCodec.fingerprintBytes f = .error "another fingerprint" := if_neg hf
    rw [herror] at h
    cases h

theorem head_debugDimensions {name value : String} {c : Char} {rest : List Char}
    (h : name.toList = c :: rest) : (debugDimensions name value).toList.head? = some c := by
  simp [debugDimensions, h]

theorem confinedCodec_injective : confinedCodec.Injective where
  bytes hf hg := (confinedCodec_bytes hf).1.trans (confinedCodec_bytes hg).1.symm
  requirement := by
    apply renderBy_injective (by decide)
    intro entry hentry
    simp only [confinedRequirements, List.map_cons, List.map_nil, List.mem_cons, List.not_mem_nil,
      or_false] at hentry
    rcases hentry with rfl | rfl | rfl | rfl
    · exact ⟨'C', rfl, by decide⟩
    · exact ⟨'C', rfl, by decide⟩
    · exact ⟨'H', rfl, by decide⟩
    · exact ⟨'H', rfl, by decide⟩
  workload := renderBy_singleton_injective (c := 'P') rfl (by decide)
  request := renderBy_singleton_injective (c := 'B') (head_debugDimensions rfl) (by decide)
  admitted := renderBy_singleton_injective (c := 'A') (head_debugDimensions rfl) (by decide)

theorem confinedCodec_planBytes {spec : BoundarySpec} {p : BoundaryPlan} {b : List (BitVec 8)}
    (h : planBytes confinedCodec spec p = .ok b) : b = confinedFingerprintBytes :=
  (confinedCodec_bytes h).2

def confinedRegistry : BackendRegistry Unit :=
  BackendRegistry.new.register confinedBackend

/-- The requirements of the spec as its backend admits them. -/
def confinedAdmitted : List AdmittedRequirement :=
  admittedRequirements confinedBackend (classifyAll confinedBackend () confinedSpec)

theorem sortAdmitted_confined :
    sortAdmitted confinedCodec confinedAdmitted = confinedFingerprint.admitted := by
  decide +kernel

theorem computePlanId_confined :
    computePlanId confinedCodec "linux" confinedSnapshot confinedAdmitted confinedSpec
      confinedBudgets = .ok confinedPlan.planId := by
  have hevidence : confinedSpec.evidence.debug = confinedFingerprint.evidence := by decide +kernel
  have hprint : planFingerprint confinedCodec "linux" confinedSnapshot confinedAdmitted
      confinedSpec confinedBudgets = confinedFingerprint := by
    rw [planFingerprint, sortAdmitted_confined, hevidence]
    rfl
  have hbytes : confinedCodec.fingerprintBytes confinedFingerprint =
      .ok confinedFingerprintBytes := by
    simp [confinedCodec]
  have hhash : confinedCodec.hash confinedFingerprintBytes = confinedPlan.planId := by
    decide +kernel
  rw [computePlanId, hprint, hbytes]
  exact congrArg Except.ok hhash

theorem buildAdmittedPlan_confined :
    buildAdmittedPlan confinedCodec confinedBackend confinedSnapshot
      (classifyAll confinedBackend () confinedSpec) confinedSpec = .ok confinedPlan := by
  have hhash : confinedCodec.hash confinedProfileBytes = confinedProfileDigest := by
    simp [confinedCodec]
  have hdigest : budgetProfileDigest confinedCodec confinedSnapshot = .ok confinedProfileDigest :=
    congrArg Except.ok hhash
  have hbudgets : budgetAdmit confinedSpec.budgets confinedSnapshot.budget
      (deriveMinimums confinedSpec) confinedProfileDigest = .ok confinedBudgets := by
    decide +kernel
  exact bindOk_iff.mpr ⟨_, mapError_ok_iff.mpr hdigest, bindOk_iff.mpr
    ⟨_, mapError_ok_iff.mpr hbudgets, bindOk_iff.mpr
      ⟨_, mapError_ok_iff.mpr computePlanId_confined, rfl⟩⟩⟩

theorem confinedSpec_plans :
    plan confinedCodec confinedRegistry confinedSpec "linux" = .ok confinedPlan := by
  have hshadow := (@plannerShadowCheck_ok (plannerInputs (classifyAll confinedBackend ()
    confinedSpec) confinedSpec.evidence.requiredClaims) _).mpr ⟨rfl, by decide, by decide⟩
  exact bindOk_iff.mpr ⟨(), rfl, bindOk_iff.mpr ⟨_, mapError_ok_iff.mpr hshadow,
    buildAdmittedPlan_confined⟩⟩

def reorderedCapabilities : List Capability :=
  [.childSpawn .denyNewTasks, .network .denyAll]

def reorderedControls : List HostControl :=
  [.listOutputs, .launchWorkload, .launchWorkload]

/-- The spec and one of its permutations. -/
theorem confinedPlan_reordered :
    plan confinedCodec confinedRegistry confinedSpec "linux" = .ok confinedPlan ∧
    ∃ p', plan confinedCodec confinedRegistry
        { confinedSpec with capabilities := reorderedCapabilities, controls := reorderedControls }
        "linux" = .ok p' ∧
      p'.planId = confinedPlan.planId ∧ p'.budgets = confinedPlan.budgets ∧
      confinedPlan.admitted.Perm p'.admitted := by
  obtain ⟨hreorder, hbinds⟩ := @planId_order_insensitive_and_binding Unit Unit confinedCodec
    confinedCodec_injective
  obtain ⟨p', hp', hid⟩ := hreorder confinedRegistry confinedSpec "linux" confinedPlan
    reorderedCapabilities reorderedControls confinedSpec_plans (by decide) (by decide)
  have hagree := hbinds confinedRegistry confinedRegistry confinedSpec
    { confinedSpec with capabilities := reorderedCapabilities, controls := reorderedControls }
    "linux" "linux" confinedPlan p' confinedSpec_plans hp' (fun b b' hb hb' _ =>
      (confinedCodec_planBytes hb).trans (confinedCodec_planBytes hb').symm) hid.symm
  exact ⟨confinedSpec_plans, p', hp', hid, hagree.2.2.2.2.1.symm, hagree.2.2.2.2.2.2⟩

end Batpak.Bvisor
