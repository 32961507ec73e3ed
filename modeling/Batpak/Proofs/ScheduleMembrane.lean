/-
Module: Batpak.Proofs.ScheduleMembrane
Purpose: What the nine checks of the schedule circuit say about the supplied order, and that
  the first one that fails is the refusal of the reference.
Trusted boundary: none
Main exports: firstFailing_eq_scheduleDetail, emits_buildChecks
-/
import Batpak.Proofs.ScheduleLanes

namespace Batpak.Bvisor

open Batpak.Util

variable {w q i : Nat} {α : Type}

/-! ### Single bits -/

section Bits

variable {x v v' r : List Lane} {shape : ScheduleShape} {inputs : ScheduleInputs}

theorem emits_bitSet {width : Width} {index m : Nat} {target : NodeId} (hwidth : width.bits ≤ 64)
    (hindex : index < width.bits) (h : Word v width.bits target m) :
    Emits x 2 r r v (bitSet index target width) fun v' id =>
      Bit v' id (m.testBit index = true) := by
  apply Emits.cost (c := 1 + 1) (Nat.le_refl _)
  apply (emits_konst hwidth).bind
  intro v₁ mask h₁ hmask
  apply (emits_bitsetSubset hmask (h.mono h₁)).weaken (Nat.le_refl _)
  intro v₂ id _ hid
  apply hid.congr
  have hbit : ∀ k, (bit index).toNat.testBit k = true ↔ k = index := by
    intro k
    rw [← BitVec.getLsbD, bit_getLsbD (Nat.lt_of_lt_of_le hindex hwidth), decide_eq_true_iff]
  constructor
  · intro hall
    exact hall index hindex ((hbit index).mpr rfl)
  · intro hset k _ hk
    rw [(hbit k).mp hk]
    exact hset

/-- Every member of a set of the universe meets its guard. -/
theorem emits_impliesAllBits {bitset : NodeId} {m : Nat} {guard : Nat → NodeId} {G : Nat → Prop}
    (hfits : Fits inputs shape) (h : Word v shape.universeWidth.bits bitset m)
    (hguard : ∀ k < shape.universeSize, Bit v (guard k) (G k)) :
    Emits x 321 r r v (impliesAllBits bitset shape guard) fun v' id =>
      Bit v' id (∀ k < shape.universeSize, m.testBit k = true → G k) := by
  have hle := hfits.universe_le
  apply Emits.weaken (c := (List.range shape.universeSize).length * (2 + (1 + 1)) +
    ((List.range shape.universeSize).length + 1)) (by rw [List.length_range]; omega) _
    (emits_collectAll (P := fun k => ¬m.testBit k = true ∨ G k) _)
  · intro v' id _ hid
    apply hid.congr
    simp only [List.mem_range, imp_iff_not_or]
  · intro k hk v' hext
    have hlt := List.mem_range.mp hk
    apply (emits_bitSet hle hlt (h.mono hext)).bind
    intro v₁ has h₁ hhas
    apply (emits_not hhas).bind
    intro v₂ notHas h₂ hnot
    exact emits_or hnot ((hguard k hlt).mono (hext.trans (h₁.trans h₂)))

end Bits

/-! ### The checks -/

/-- A node evaluates to the truth value of a statement, provided that another one holds: a
check of the circuit agrees with the reference where the checks before it pass. -/
def BitWhen (v : List Lane) (id : NodeId) (cond P : Prop) : Prop :=
  ∃ p, Holds v id [p] ∧ (cond → (p = true ↔ P))

theorem Bit.when {v : List Lane} {id : NodeId} {cond P Q : Prop} (h : Bit v id Q)
    (hiff : cond → (Q ↔ P)) : BitWhen v id cond P := by
  obtain ⟨p, hp, hQ⟩ := h
  exact ⟨p, hp, fun hcond => hQ.trans (hiff hcond)⟩

section Checks

variable {x v v' r : List Lane} {shape : ScheduleShape} {lanes : ScheduleLanes} {d : Derived}
  {inputs : ScheduleInputs}

/-- A field of the declaration of any primitive, declared or not. -/
theorem decl_lt {f : PrimitiveDeclInputs → Nat} (h : ∀ d ∈ inputs.declarations, f d < 2 ^ w)
    (hdefault : f default = 0) (p : Nat) :
    f (inputs.decl p) < 2 ^ w := by
  unfold ScheduleInputs.decl
  rw [List.getD_eq_getElem?_getD]
  cases hp : inputs.declarations[p]? with
  | none =>
      rw [Option.getD_none, hdefault]
      exact Nat.two_pow_pos w
  | some d => exact h d (List.mem_of_getElem? hp)

theorem decl_getElem? (hq : q < inputs.declarations.length) :
    inputs.declarations[q]? = some (inputs.decl q) := by
  unfold ScheduleInputs.decl
  rw [List.getD_eq_getElem _ _ hq]
  exact List.getElem?_eq_getElem hq

theorem emits_checkInRange (hfits : Fits inputs shape) (h : ScheduleHolds v shape lanes inputs) :
    Emits x (2 * inputs.schedule.length + 2) r r v (checkInRange lanes shape) fun v' id =>
      Bit v' id inputs.InRange := by
  apply Emits.cost (c := 1 + (inputs.order.length * 1 + (inputs.order.length + 1)))
    (by rw [ScheduleInputs.order, List.length_map]; omega)
  have hword : (word shape.declarations).toNat = inputs.declarations.length := by
    rw [hfits.declarations]
    apply word_toNat
    have := hfits.count_le
    have := hfits.universe_le
    omega
  apply (emits_konst hfits.index_le).bind
  intro v₁ nConst h₁ hnConst
  rw [hword] at hnConst
  apply emits_collectAll₂ (fun v idx p => Word v shape.indexWidth.bits idx p ∧
    Word v shape.indexWidth.bits nConst inputs.declarations.length)
    (fun hext hrel => ⟨hrel.1.mono hext, hrel.2.mono hext⟩)
    ((h.mono h₁).order.imp fun _ _ hidx => ⟨hidx, hnConst⟩)
  intro idx p hp v₂ _ hrel
  exact emits_compareUlt (order_lt hfits p hp) hfits.count hrel.1 hrel.2

theorem forall_laterPairs {P : α → α → Prop} {xs : List α} :
    (∀ e ∈ laterPairs xs, P e.1 e.2) ↔ xs.Pairwise P := by
  induction xs with
  | nil => simp [laterPairs]
  | cons a xs ih =>
      rw [laterPairs, List.forall_mem_append, ih, List.pairwise_cons, List.forall_mem_map]

theorem length_laterPairs_le (xs : List α) :
    (laterPairs xs).length ≤ xs.length * xs.length := by
  induction xs with
  | nil => exact Nat.le_refl _
  | cons a xs ih =>
      rw [laterPairs, List.length_append, List.length_map, List.length_cons, Nat.succ_mul,
        Nat.mul_succ]
      omega

theorem Lanes.laterPairs {ids : List NodeId} {f : α → Nat} {xs : List α} (h : Lanes v w ids f xs) :
    List.Forall₂ (fun e e' => Word v w e.1 (f e'.1) ∧ Word v w e.2 (f e'.2))
      (Bvisor.laterPairs ids) (Bvisor.laterPairs xs) := by
  induction h with
  | nil => exact .nil
  | @cons id a ids xs hid hrest ih =>
      apply List.rel_append
      · rw [List.forall₂_map_left_iff, List.forall₂_map_right_iff]
        exact hrest.imp fun _ _ hother => ⟨hid, hother⟩
      · exact ih

theorem emits_checkDistinct (hfits : Fits inputs shape) (h : ScheduleHolds v shape lanes inputs) :
    Emits x (3 * (inputs.schedule.length * inputs.schedule.length) + 1) r r v
      (checkDistinct lanes) fun v' id => Bit v' id inputs.Distinct := by
  have hlength := length_laterPairs_le inputs.order
  have horder : inputs.order.length = inputs.schedule.length := List.length_map _
  rw [horder] at hlength
  apply Emits.weaken (c := (laterPairs inputs.order).length * (1 + 1) +
    ((laterPairs inputs.order).length + 1)) (by omega) _
    (emits_collectAll₂ (P := fun e : Nat × Nat => ¬e.1 = e.2)
      (fun v (e e' : Nat × Nat) => Word v shape.indexWidth.bits e.1 e'.1 ∧
        Word v shape.indexWidth.bits e.2 e'.2)
      (fun hext hrel => ⟨hrel.1.mono hext, hrel.2.mono hext⟩) h.order.laterPairs _)
  · intro v' id _ hid
    apply hid.congr
    exact forall_laterPairs (P := fun a b : Nat => ¬a = b)
  · intro e e' he v₁ _ hrel
    have hlt : e'.1 < 2 ^ shape.indexWidth.bits ∧ e'.2 < 2 ^ shape.indexWidth.bits := by
      apply (forall_laterPairs (P := fun a b => a < 2 ^ shape.indexWidth.bits ∧
        b < 2 ^ shape.indexWidth.bits)).mpr _ e' he
      apply List.pairwise_of_forall_mem_list
      intro a ha b hb
      exact ⟨order_lt hfits a ha, order_lt hfits b hb⟩
    apply (emits_equal hlt.1 hlt.2 hrel.1 hrel.2).bind
    intro v₂ eq _ heq
    exact emits_not heq

theorem emits_checkDeclIntegrity (hfits : Fits inputs shape)
    (h : ScheduleHolds v shape lanes inputs) (hd : DerivedHolds v shape d inputs) :
    Emits x (4 * inputs.schedule.length + 1) r r v (checkDeclIntegrity lanes d) fun v' id =>
      Bit v' id inputs.Integrity := by
  have hdigest : ∀ s, (inputs.decl (slotIndex s)).declDigest.toNat < 2 ^ shape.digestWidth.bits ∧
      (inputs.decl (slotIndex s)).paramDigest.toNat < 2 ^ shape.digestWidth.bits := by
    intro s
    exact ⟨decl_lt hfits.declDigest rfl _, decl_lt hfits.paramDigest rfl _⟩
  apply Emits.weaken (c := inputs.schedule.length * (1 + (1 + 1)) + (inputs.schedule.length + 1))
    (by omega) _ (emits_collectAll₂ (P := fun s : ScheduleSlotInputs =>
      (inputs.decl (slotIndex s)).declDigest.toNat = s.claimedDeclDigest.toNat ∧
        (inputs.decl (slotIndex s)).paramDigest.toNat = s.claimedParamDigest.toNat)
      (fun v i s => (ScheduleHolds v shape lanes inputs ∧ DerivedHolds v shape d inputs) ∧
        inputs.schedule[i]? = some s)
      (fun hext hrel => ⟨⟨hrel.1.1.mono hext, hrel.1.2.mono hext⟩, hrel.2⟩)
      _ _)
  · intro v' id _ hid
    apply hid.congr
    simp only [BitVec.toNat_inj, ScheduleInputs.Integrity, eq_comm]
  · rw [h.slotIndex.length_eq]
    exact (forall₂_range _).imp fun _ _ hi => ⟨⟨h, hd⟩, hi⟩
  · intro i s hs v₁ _ hrel
    obtain ⟨⟨h, hd⟩, hi⟩ := hrel
    apply (emits_equal (hdigest s).1 (hfits.claimedDecl s hs) (hd.gdecl.getD hi)
      (h.slotDecl.getD hi)).bind
    intro v₂ declOk h₂ hdecl
    apply (emits_equal (hdigest s).2 (hfits.claimedParam s hs) ((hd.mono h₂).gparam.getD hi)
      ((h.mono h₂).slotParam.getD hi)).bind
    intro v₃ paramOk h₃ hparam
    exact emits_and (hdecl.mono h₃) hparam

/-- Below the universe a primitive that is needed has its bit in the lane. -/
theorem needs_lt (hfits : Fits inputs shape) {p k : Nat} (h : inputs.Needs p k) :
    k < shape.universeSize := by
  by_contra hge
  have hlt := Nat.lt_of_lt_of_le (decl_lt hfits.prerequisites rfl p)
    (Nat.pow_le_pow_right Nat.two_pos (Nat.not_lt.mp hge))
  rw [ScheduleInputs.Needs, BitVec.getLsbD, Nat.testBit_lt_two_pow hlt] at h
  cases h

theorem emits_checkPrereqClosure (hfits : Fits inputs shape)
    (h : ScheduleHolds v shape lanes inputs) (hd : DerivedHolds v shape d inputs) :
    Emits x 20737 r r v (checkPrereqClosure lanes d shape) fun v' id =>
      BitWhen v' id inputs.InRange inputs.Closed := by
  have hcount := hfits.count_le
  have huniverse := hfits.universe_le
  have hn := hfits.declarations
  apply Emits.weaken (c := (List.range shape.declarations).length * (321 + (1 + 1)) +
    ((List.range shape.declarations).length + 1)) (by rw [List.length_range]; omega) _
    (emits_collectAll (P := fun q => ¬q ∈ inputs.order ∨ ∀ k < shape.universeSize,
      (inputs.decl q).prerequisites.toNat.testBit k = true → k ∈ inputs.order) _)
  · intro v' id _ hid
    apply hid.when
    intro hrange
    constructor
    · intro hall p hp k hneeds
      have hmem : p ∈ List.range shape.declarations := by
        rw [List.mem_range, hn]
        exact hrange p hp
      exact (hall p hmem).resolve_left (not_not.mpr hp) k (needs_lt hfits hneeds) hneeds
    · intro hclosed q _
      by_cases hq : q ∈ inputs.order
      · exact .inr fun k _ hk => hclosed q hq k hk
      · exact .inl hq
  · intro q hq v₁ hext
    rw [List.mem_range, hn] at hq
    have hqU := Nat.lt_of_lt_of_le hq hcount
    apply (emits_impliesAllBits hfits ((h.mono hext).prereq.getD (decl_getElem? hq))
      fun k hk => (hd.mono hext).present hk).bind
    intro v₂ satisfied h₂ hsatisfied
    apply (emits_not ((hd.mono (hext.trans h₂)).present hqU)).bind
    intro v₃ absent h₃ habsent
    exact emits_or habsent (hsatisfied.mono h₃)

/-- The bits of one primitive against every other one. -/
theorem emits_noClash (hfits : Fits inputs shape) (h : ScheduleHolds v shape lanes inputs)
    (hd : DerivedHolds v shape d inputs) (hq : q < inputs.declarations.length) :
    Emits x 320 r r v (collect (fun other => do
        let has ← bitSet other (lanes.conflict.getD q 0) shape.universeWidth
        let notHas ← not has
        let notPresent ← not (d.present other)
        or notHas notPresent) ((List.range shape.declarations).filter (· ≠ q))) fun v' bits =>
      List.Forall₂ (fun other id => Bit v' id (¬(inputs.decl q).conflicts.toNat.testBit other = true
        ∨ ¬other ∈ inputs.order)) ((List.range shape.declarations).filter (· ≠ q)) bits := by
  have hcount := hfits.count_le
  have huniverse := hfits.universe_le
  have hn := hfits.declarations
  have hlength := List.length_filter_le (fun k => decide (k ≠ q)) (List.range shape.declarations)
  rw [List.length_range] at hlength
  apply Emits.cost (c := ((List.range shape.declarations).filter (· ≠ q)).length *
    (2 + (1 + (1 + 1)))) (by omega)
  apply emits_collect (fun other v id => Bit v id
    (¬(inputs.decl q).conflicts.toNat.testBit other = true ∨ ¬other ∈ inputs.order))
    (fun _ _ _ _ hext hbit => Bit.mono hbit hext)
  intro other hother v₁ h₁
  have hlt := List.mem_range.mp (List.mem_filter.mp hother).1
  have hU : other < shape.universeSize := by omega
  apply (emits_bitSet huniverse hU ((h.mono h₁).conflict.getD (decl_getElem? hq))).bind
  intro v₂ has h₂ hhas
  apply (emits_not hhas).bind
  intro v₃ notHas h₃ hnotHas
  apply (emits_not ((hd.mono (h₁.trans (h₂.trans h₃))).present hU)).bind
  intro v₄ notPresent h₄ hnotPresent
  exact emits_or (hnotHas.mono h₄) hnotPresent

theorem emits_checkConflictFree (hfits : Fits inputs shape)
    (h : ScheduleHolds v shape lanes inputs) (hd : DerivedHolds v shape d inputs) :
    Emits x 24833 r r v (checkConflictFree lanes d shape) fun v' id =>
      BitWhen v' id inputs.InRange inputs.ConflictFree := by
  have hcount := hfits.count_le
  have huniverse := hfits.universe_le
  have hn := hfits.declarations
  apply Emits.weaken (c := (List.range shape.declarations).length * (320 + (65 + (1 + 1))) +
    ((List.range shape.declarations).length + 1)) (by rw [List.length_range]; omega) _
    (emits_collectAll (P := fun q => ¬q ∈ inputs.order ∨
      ∀ other ∈ (List.range shape.declarations).filter (· ≠ q),
        ¬(inputs.decl q).conflicts.toNat.testBit other = true ∨ ¬other ∈ inputs.order) _)
  · intro v' id _ hid
    apply hid.when
    intro hrange
    have hmem : ∀ p ∈ inputs.order, p ∈ List.range shape.declarations := by
      intro p hp
      rw [List.mem_range, hn]
      exact hrange p hp
    constructor
    · intro hall p hp q hq hne
      have hother : q ∈ (List.range shape.declarations).filter (· ≠ p) := by
        rw [List.mem_filter, decide_eq_true_iff]
        exact ⟨hmem q hq, hne⟩
      have hclear := ((hall p (hmem p hp)).resolve_left (not_not.mpr hp) q hother).resolve_right
        (not_not.mpr hq)
      exact Bool.not_eq_true _ |>.mp hclear
    · intro hfree q _
      by_cases hq : q ∈ inputs.order
      · apply Or.inr
        intro other hother
        rw [List.mem_filter, decide_eq_true_iff] at hother
        by_cases hpresent : other ∈ inputs.order
        · exact .inl (Bool.not_eq_true _ |>.mpr (hfree q hq other hpresent hother.2))
        · exact .inr hpresent
      · exact .inl hq
  · intro q hq v₁ hext
    rw [List.mem_range, hn] at hq
    have hlength := List.length_filter_le (fun k => decide (k ≠ q)) (List.range shape.declarations)
    rw [List.length_range] at hlength
    apply (emits_noClash hfits (h.mono hext) (hd.mono hext) hq).bind
    intro v₂ bits h₂ hbits
    apply ((emits_andReduce hbits).cost (by omega)).bind
    intro v₃ clean h₃ hclean
    have hpresent := (hd.mono (hext.trans (h₂.trans h₃))).present (Nat.lt_of_lt_of_le hq hcount)
    apply (emits_not hpresent).bind
    intro v₄ absent h₄ habsent
    exact emits_or habsent (hclean.mono h₄)

theorem order_getElem? (hi : i < inputs.schedule.length) :
    ∃ s, inputs.schedule[i]? = some s ∧ inputs.order[i]? = some (slotIndex s) := by
  refine ⟨inputs.schedule[i], List.getElem?_eq_getElem hi, ?_⟩
  rw [ScheduleInputs.order, List.getElem?_map, List.getElem?_eq_getElem hi, Option.map_some]

theorem emits_checkPrereqOrder (hfits : Fits inputs shape) (hd : DerivedHolds v shape d inputs) :
    Emits x (322 * inputs.schedule.length + 1) r r v (checkPrereqOrder d shape) fun v' id =>
      BitWhen v' id inputs.Closed inputs.PrereqsFirst := by
  have hk := hfits.slots
  apply Emits.weaken (c := (List.range shape.slots).length * 321 +
    ((List.range shape.slots).length + 1)) (by rw [List.length_range]; omega) _
    (emits_collectAll (P := fun i => ∀ p, inputs.order[i]? = some p → ∀ k < shape.universeSize,
      (inputs.decl p).prerequisites.toNat.testBit k = true → k ∈ inputs.order.take i) _)
  · intro v' id _ hid
    apply hid.when
    intro hclosed
    constructor
    · intro hall i p hp k hneeds _
      have hlt := (List.getElem?_eq_some_iff.mp hp).1
      rw [ScheduleInputs.order, List.length_map, ← hk] at hlt
      exact hall i (List.mem_range.mpr hlt) p hp k (needs_lt hfits hneeds) hneeds
    · intro hfirst i _ p hp k _ hneeds
      exact hfirst i p hp k hneeds (hclosed p (List.mem_of_getElem? hp) k hneeds)
  · intro i hi v₁ hext
    rw [List.mem_range, hk] at hi
    obtain ⟨s, hs, hp⟩ := order_getElem? hi
    apply (emits_impliesAllBits hfits ((hd.mono hext).gprereq.getD hs)
      fun k hkU => (hd.mono hext).before hkU hi).weaken (Nat.le_refl _)
    intro v₂ id _ hid
    apply hid.congr
    simp only [hp, Option.some.injEq, forall_eq']

theorem Lanes.consecutive {ids : List NodeId} {f : α → Nat} {xs : List α} (h : Lanes v w ids f xs) :
    List.Forall₂ (fun e e' => Word v w e.1 (f e'.1) ∧ Word v w e.2 (f e'.2))
      (ids.zip ids.tail) (xs.zip xs.tail) := by
  induction h with
  | nil => exact .nil
  | cons hid hrest ih =>
      cases hrest with
      | nil => exact .nil
      | cons hid' hrest' => exact .cons ⟨hid, hid'⟩ ih

theorem emits_checkPhaseOrder (hfits : Fits inputs shape) (hd : DerivedHolds v shape d inputs) :
    Emits x (2 * inputs.schedule.length + 1) r r v (checkPhaseOrder d) fun v' id =>
      Bit v' id inputs.PhasesAscend := by
  have hlength : (inputs.schedule.zip inputs.schedule.tail).length ≤ inputs.schedule.length := by
    rw [List.length_zip]
    exact Nat.min_le_left _ _
  apply Emits.weaken (c := (inputs.schedule.zip inputs.schedule.tail).length * 1 +
    ((inputs.schedule.zip inputs.schedule.tail).length + 1)) (by omega) _
    (emits_collectAll₂ (P := fun e : ScheduleSlotInputs × ScheduleSlotInputs =>
      (inputs.decl (slotIndex e.1)).phase.toNat ≤ (inputs.decl (slotIndex e.2)).phase.toNat)
      (fun v (e : NodeId × NodeId) (e' : ScheduleSlotInputs × ScheduleSlotInputs) =>
        Word v shape.phaseWidth.bits e.1 (inputs.decl (slotIndex e'.1)).phase.toNat ∧
          Word v shape.phaseWidth.bits e.2 (inputs.decl (slotIndex e'.2)).phase.toNat)
      (fun hext hrel => ⟨hrel.1.mono hext, hrel.2.mono hext⟩) hd.gphase.consecutive _)
  · intro v' id _ hid
    apply hid.congr
    have hzip : inputs.order.zip inputs.order.tail =
        (inputs.schedule.zip inputs.schedule.tail).map
          fun e => (slotIndex e.1, slotIndex e.2) := by
      rw [ScheduleInputs.order, ← List.map_tail, List.zip_map]
      rfl
    rw [ScheduleInputs.PhasesAscend, hzip, List.forall_mem_map]
  · intro e e' _ v₁ _ hrel
    exact emits_compareUle (decl_lt hfits.phase rfl _) (decl_lt hfits.phase rfl _) hrel.1 hrel.2

theorem emits_checkCoverage (hfits : Fits inputs shape)
    (h : ScheduleHolds v shape lanes inputs) (hd : DerivedHolds v shape d inputs) :
    Emits x 16769 r r v (checkCoverage lanes d shape) fun v' id =>
      BitWhen v' id inputs.InRange inputs.Covered := by
  have hcount := hfits.count_le
  have huniverse := hfits.universe_le
  have hcovers := hfits.covers_le
  have hn := hfits.declarations
  apply Emits.weaken (c := (List.range shape.coversSize).length * (2 + (192 + (65 + (1 + 1)))) +
    ((List.range shape.coversSize).length + 1)) (by rw [List.length_range]; omega) _
    (emits_collectAll (P := fun c => ¬inputs.required.toNat.testBit c = true ∨
      ∃ q ∈ List.range shape.declarations,
        q ∈ inputs.order ∧ (inputs.decl q).covers.toNat.testBit c = true) _)
  · intro v' id _ hid
    apply hid.when
    intro hrange
    constructor
    · intro hall c hc
      have hlt : c < shape.coversSize := by
        by_contra hge
        have hsmall := Nat.lt_of_lt_of_le hfits.required
          (Nat.pow_le_pow_right Nat.two_pos (Nat.not_lt.mp hge))
        rw [BitVec.getLsbD, Nat.testBit_lt_two_pow hsmall] at hc
        cases hc
      obtain ⟨q, -, hq, hcover⟩ := (hall c (List.mem_range.mpr hlt)).resolve_left (not_not.mpr hc)
      exact ⟨q, hq, hcover⟩
    · intro hcovered c _
      by_cases hc : inputs.required.toNat.testBit c = true
      · obtain ⟨q, hq, hcover⟩ := hcovered c hc
        have hlt := hrange q hq
        rw [← hn] at hlt
        exact .inr ⟨q, List.mem_range.mpr hlt, hq, hcover⟩
      · exact .inl hc
  · intro c hc v₁ hext
    have hlt := List.mem_range.mp hc
    apply (emits_bitSet hcovers hlt (h.mono hext).required).bind
    intro v₂ requiredC h₂ hrequired
    have hext₂ := hext.trans h₂
    have hcoveredBy : Emits x 192 r r v₂ (collect (fun q => do
        let coversC ← bitSet c (lanes.covers.getD q 0) shape.coversWidth
        and (d.present q) coversC) (List.range shape.declarations)) fun v' bits =>
        List.Forall₂ (fun q id => Bit v' id (q ∈ inputs.order ∧
          (inputs.decl q).covers.toNat.testBit c = true)) (List.range shape.declarations) bits := by
      apply Emits.cost (c := (List.range shape.declarations).length * (2 + 1))
        (by rw [List.length_range]; omega)
      apply emits_collect (fun q v id => Bit v id (q ∈ inputs.order ∧
        (inputs.decl q).covers.toNat.testBit c = true))
        (fun _ _ _ _ hext hbit => Bit.mono hbit hext)
      intro q hq v₃ h₃
      rw [List.mem_range, hn] at hq
      have hext₃ := hext₂.trans h₃
      apply (emits_bitSet hcovers hlt ((h.mono hext₃).covers.getD (decl_getElem? hq))).bind
      intro v₄ coversC h₄ hcoversC
      exact emits_and ((hd.mono (hext₃.trans h₄)).present (Nat.lt_of_lt_of_le hq hcount)) hcoversC
    apply hcoveredBy.bind
    intro v₃ coveredBy h₃ hbits
    apply ((emits_orReduce hbits).cost (by rw [List.length_range]; omega)).bind
    intro v₄ covered h₄ hcovered
    apply (emits_not (hrequired.mono (h₃.trans h₄))).bind
    intro v₅ notRequired h₅ hnot
    exact emits_or hnot (hcovered.mono h₅)

theorem emits_keyLess {p : Nat} {s : ScheduleSlotInputs} (hfits : Fits inputs shape)
    (h : ScheduleHolds v shape lanes inputs) (hd : DerivedHolds v shape d inputs)
    (hq : q < inputs.declarations.length) (hs : inputs.schedule[i]? = some s) (hp : slotIndex s = p) :
    Emits x 6 r r v (keyLess lanes d shape q i) fun v' id =>
      Bit v' id (inputs.key q < inputs.key p) := by
  subst hp
  apply Emits.cost (c := 1 + (1 + (1 + (1 + (1 + 1))))) (Nat.le_refl _)
  have hphase := decl_lt hfits.phase rfl
  have hword : (word q).toNat = q := by
    apply word_toNat
    have := hfits.count_le
    have := hfits.universe_le
    omega
  have hindex : q < 2 ^ shape.indexWidth.bits := hq.trans hfits.count
  apply (emits_compareUlt (hphase q) (hphase _) (h.phase.getD (decl_getElem? hq))
    (hd.gphase.getD hs)).bind
  intro v₁ phaseLt h₁ hlt
  apply (emits_equal (hphase q) (hphase _) ((h.mono h₁).phase.getD (decl_getElem? hq))
    ((hd.mono h₁).gphase.getD hs)).bind
  intro v₂ phaseEq h₂ heq
  apply (emits_konst hfits.index_le).bind
  intro v₃ qConst h₃ hqConst
  rw [hword] at hqConst
  apply (emits_compareUlt hindex (hfits.slotIndex s (List.mem_of_getElem? hs)) hqConst
    ((h.mono (h₁.trans (h₂.trans h₃))).slotIndex.getD hs)).bind
  intro v₄ indexLt h₄ hindexLt
  apply (emits_and (heq.mono (h₃.trans h₄)) hindexLt).bind
  intro v₅ tie h₅ htie
  apply (emits_or (hlt.mono (h₂.trans (h₃.trans (h₄.trans h₅)))) htie).weaken (Nat.le_refl _)
  intro v₆ id _ hid
  apply hid.congr
  unfold ScheduleInputs.key
  rw [Prod.Lex.toLex_lt_toLex]

/-- A primitive that the slot passed over although it was ready and has the smaller key. -/
def PassedOver (shape : ScheduleShape) (inputs : ScheduleInputs) (e : Nat × Nat) : Prop :=
  (e.2 ∈ inputs.order ∧ ¬e.2 ∈ inputs.order.take (e.1 + 1)) ∧
    (∀ k < shape.universeSize, (inputs.decl e.2).prerequisites.toNat.testBit k = true →
      k ∈ inputs.order.take e.1) ∧ inputs.key e.2 < inputs.key (inputs.order.getD e.1 0)

theorem emits_violation (hfits : Fits inputs shape) (h : ScheduleHolds v shape lanes inputs)
    (hd : DerivedHolds v shape d inputs) (hi : i < inputs.schedule.length)
    (hq : q < inputs.declarations.length) :
    Emits x 331 r r v (do
      let unselected ← not (d.upto i q)
      let ready ← impliesAllBits (lanes.prereq.getD q 0) shape (d.before i)
      let keyLt ← keyLess lanes d shape q i
      let pu ← and (d.present q) unselected
      let rk ← and ready keyLt
      and pu rk) fun v' id => Bit v' id (PassedOver shape inputs (i, q)) := by
  apply Emits.cost (c := 1 + (321 + (6 + (1 + (1 + 1))))) (Nat.le_refl _)
  obtain ⟨s, hs, hp⟩ := order_getElem? hi
  have hqU := Nat.lt_of_lt_of_le hq hfits.count_le
  have hkey : slotIndex s = inputs.order.getD i 0 := by
    rw [List.getD_eq_getElem?_getD, hp, Option.getD_some]
  apply (emits_not (hd.upto hqU hi)).bind
  intro v₁ unselected h₁ hunselected
  apply (emits_impliesAllBits hfits ((h.mono h₁).prereq.getD (decl_getElem? hq))
    fun k hk => (hd.mono h₁).before hk hi).bind
  intro v₂ ready h₂ hready
  have h₁₂ := h₁.trans h₂
  apply (emits_keyLess hfits (h.mono h₁₂) (hd.mono h₁₂) hq hs hkey).bind
  intro v₃ keyLt h₃ hkeyLt
  apply (emits_and ((hd.mono (h₁₂.trans h₃)).present hqU) (hunselected.mono (h₂.trans h₃))).bind
  intro v₄ pu h₄ hpu
  apply (emits_and (hready.mono (h₃.trans h₄)) (hkeyLt.mono h₄)).bind
  intro v₅ rk h₅ hrk
  exact emits_and (hpu.mono h₅) hrk

/-- Of an order without repetition, what is scheduled but not selected up to slot `i` comes
later. -/
theorem mem_drop_iff (hdistinct : inputs.Distinct) :
    q ∈ inputs.order.drop (i + 1) ↔ q ∈ inputs.order ∧ ¬q ∈ inputs.order.take (i + 1) := by
  have hsplit : (inputs.order.take (i + 1) ++ inputs.order.drop (i + 1)).Nodup := by
    rw [List.take_append_drop]
    exact hdistinct
  constructor
  · intro hq
    exact ⟨List.mem_of_mem_drop hq, fun htaken =>
      (List.nodup_append.mp hsplit).2.2 q htaken q hq rfl⟩
  · rintro ⟨hq, hnot⟩
    rw [← List.take_append_drop (i + 1) inputs.order, List.mem_append] at hq
    exact hq.resolve_left hnot

theorem emits_checkCanonical (hfits : Fits inputs shape)
    (h : ScheduleHolds v shape lanes inputs) (hd : DerivedHolds v shape d inputs) :
    Emits x (21248 * inputs.schedule.length + 2) r r v (checkCanonical lanes d shape)
      fun v' id => BitWhen v' id (inputs.InRange ∧ inputs.Distinct ∧ inputs.Closed)
        inputs.Canonical := by
  have hn := hfits.declarations
  have hk := hfits.slots
  generalize hpairs : ((List.range shape.slots).flatMap fun i =>
      (List.range shape.declarations).map fun q => (i, q)) = pairs
  have hmem : ∀ e, e ∈ pairs ↔ e.1 < inputs.schedule.length ∧ e.2 < inputs.declarations.length := by
    intro e
    rw [← hpairs, ← hk, ← hn]
    simp only [List.mem_flatMap, List.mem_map, List.mem_range]
    constructor
    · rintro ⟨i, hi, q, hq, rfl⟩
      exact ⟨hi, hq⟩
    · rintro ⟨hi, hq⟩
      exact ⟨e.1, hi, e.2, hq, rfl⟩
  have hlength : pairs.length ≤ 64 * inputs.schedule.length := by
    have hcount := hfits.count_le
    have huniverse := hfits.universe_le
    have hsum : pairs.length = inputs.schedule.length * inputs.declarations.length := by
      rw [← hpairs, List.length_flatMap, ← hk, ← hn]
      simp
    rw [hsum, Nat.mul_comm]
    exact Nat.mul_le_mul_right _ (hcount.trans huniverse)
  unfold checkCanonical
  rw [hpairs]
  apply Emits.cost (c := pairs.length * 331 + (pairs.length + 1 + 1)) (by omega)
  apply (emits_collect (fun e v id => Bit v id (PassedOver shape inputs e))
    (fun _ _ _ _ hext hbit => Bit.mono hbit hext) _).bind
  · intro v₁ violations h₁ hviolations
    apply (emits_orReduce hviolations).bind
    intro v₂ any h₂ hany
    apply (emits_not hany).weaken (Nat.le_refl _)
    intro v₃ id _ hid
    apply hid.when
    rintro ⟨hrange, hdistinct, hclosed⟩
    have hget : ∀ {i p : Nat}, inputs.order[i]? = some p → inputs.order.getD i 0 = p := by
      intro i p hp
      rw [List.getD_eq_getElem?_getD, hp, Option.getD_some]
    constructor
    · intro hnone i p hp q hq hbefore hkey
      apply hnone
      obtain ⟨hq, hnot⟩ := (mem_drop_iff hdistinct).mp hq
      have hi := (List.getElem?_eq_some_iff.mp hp).1
      rw [ScheduleInputs.order, List.length_map] at hi
      refine ⟨(i, q), (hmem _).mpr ⟨hi, hrange q hq⟩, ⟨hq, hnot⟩, ?_, ?_⟩
      · intro k _ hneeds
        exact hbefore k hneeds (hclosed q hq k hneeds)
      · rw [hget hp]
        exact hkey
    · rintro hcanonical ⟨e, he, hpresent, hready, hkey⟩
      obtain ⟨s, hs, hp⟩ := order_getElem? ((hmem e).mp he).1
      rw [hget hp] at hkey
      apply hcanonical e.1 _ hp e.2 ((mem_drop_iff hdistinct).mpr hpresent) _ hkey
      intro k hneeds _
      exact hready k (needs_lt hfits hneeds) hneeds
  · intro e he v₁ hext
    obtain ⟨hi, hq⟩ := (hmem e).mp he
    exact emits_violation hfits (h.mono hext) (hd.mono hext) hi hq

end Checks

/-! ### The first failing check -/

/-- The code of the reference's refusal, zero for an admitted schedule. -/
def scheduleDetail (inputs : ScheduleInputs) : Nat :=
  ((scheduleRefusal inputs).map ScheduleRefusal.code).getD 0

/-- One check of the circuit beside one of the reference. -/
theorem firstFailing_or {p : Bool} {ps : List Bool} {o rest : Option ScheduleRefusal}
    {reason : ScheduleRefusal} (ho : ∀ e, o = some e → e = reason) (hcode : reason.code = i + 1)
    (hp : p = true ↔ o = none)
    (hrest : o = none → firstFailing (i + 1) ps = (rest.map ScheduleRefusal.code).getD 0) :
    firstFailing i (p :: ps) = ((o.or rest).map ScheduleRefusal.code).getD 0 := by
  cases hcase : o with
  | none =>
      rw [firstFailing, if_pos (hp.mpr hcase), Option.none_or]
      exact hrest hcase
  | some e =>
      have hfalse : ¬p = true := by
        rw [hp, hcase]
        simp
      rw [firstFailing, if_neg hfalse, ho e hcase, Option.some_or, Option.map_some,
        Option.getD_some, hcode]

theorem ite_refusal {c : Bool} {reason e : ScheduleRefusal}
    (h : (if c = true then some reason else none) = some e) : e = reason := by
  cases c with
  | true =>
      cases h
      rfl
  | false => cases h

/-- Nine bits that agree with the checks of the reference where the earlier ones pass refuse
with the same code. -/
theorem firstFailing_eq_scheduleDetail {inputs : ScheduleInputs}
    {p₁ p₂ p₃ p₄ p₅ p₆ p₇ p₈ p₉ : Bool} (hn : inputs.declarations.length ≤ maxPrimitives)
    (h₁ : p₁ = true ↔ inputs.InRange) (h₂ : p₂ = true ↔ inputs.Distinct)
    (h₃ : p₃ = true ↔ inputs.Integrity) (h₄ : inputs.InRange → (p₄ = true ↔ inputs.Closed))
    (h₅ : inputs.InRange → (p₅ = true ↔ inputs.ConflictFree))
    (h₆ : inputs.Closed → (p₆ = true ↔ inputs.PrereqsFirst))
    (h₇ : p₇ = true ↔ inputs.PhasesAscend) (h₈ : inputs.InRange → (p₈ = true ↔ inputs.Covered))
    (h₉ : inputs.InRange ∧ inputs.Distinct ∧ inputs.Closed → (p₉ = true ↔ inputs.Canonical)) :
    firstFailing 0 [p₁, p₂, p₃, p₄, p₅, p₆, p₇, p₈, p₉] = scheduleDetail inputs := by
  unfold scheduleDetail scheduleRefusal
  by_cases hrange : inputs.InRange
  · rw [firstFailing, if_pos (h₁.mpr hrange)]
    by_cases hdistinct : inputs.Distinct
    · rw [firstFailing, if_pos (h₂.mpr hdistinct)]
      have hinWord := (ScheduleInputs.distinctInWord_iff hn hrange).mpr hdistinct
      obtain ⟨v, hbuild, hv⟩ := build_views hrange hinWord
      rw [hbuild]
      apply firstFailing_or (fun _ he => ite_refusal he) rfl (h₃.trans hv.declIntegrity.symm)
      intro _
      apply firstFailing_or (fun _ he => ite_refusal he) rfl
        ((h₄ hrange).trans hv.prereqClosure.symm)
      intro hnone
      have hclosed := hv.prereqClosure.mp hnone
      apply firstFailing_or (fun _ he => ite_refusal he) rfl
        ((h₅ hrange).trans hv.conflictFreedom.symm)
      intro _
      apply firstFailing_or (fun _ he => ite_refusal he) rfl
        ((h₆ hclosed).trans hv.prereqOrder.symm)
      intro _
      apply firstFailing_or (fun _ he => ite_refusal he) rfl (h₇.trans hv.phaseOrder.symm)
      intro _
      have hcoverage : ∀ e, v.coverage = some e → e = .requirementUncovered := by
        intro e he
        unfold Verified.coverage at he
        split at he
        · cases he
          rfl
        · cases he
      apply firstFailing_or hcoverage rfl ((h₈ hrange).trans hv.coverage.symm)
      intro _
      have hcanonical := (h₉ ⟨hrange, hdistinct, hclosed⟩).trans
        (ScheduleInputs.canonicalInWord_iff hn hrange).symm
      rw [← Option.or_none (o := v.canonicality)]
      apply firstFailing_or (fun _ he => ite_refusal he) rfl
        (hcanonical.trans (hv.canonicality hinWord).symm)
      intro _
      rfl
    · have hrepeated := fun h => hdistinct ((ScheduleInputs.distinctInWord_iff hn hrange).mp h)
      rw [firstFailing, if_neg (fun h => hdistinct (h₂.mp h)), build_duplicate hrange hrepeated]
      rfl
  · rw [firstFailing, if_neg (fun h => hrange (h₁.mp h)), build_outOfRange hrange]
    rfl

/-- Nodes that a schedule of the given length takes at most. -/
def scheduleCost (slots : Nat) : Nat :=
  3 * (slots * slots) + 23000 * slots + 63000

/-- The nine checks of the circuit, run on the encoded inputs. -/
theorem emits_buildChecks {x v r : List Lane} {inputs : ScheduleInputs}
    (hx : x.length ≤ u16Max + 1) (hn : inputs.declarations.length ≤ maxPrimitives) :
    Emits x (scheduleCost inputs.schedule.length)
      (encodeSchedule inputs (shapeOf inputs) ++ r) r v (buildChecks (shapeOf inputs))
      fun v' ids => ∃ ps, Checks v' ids ps ∧ ps.length = 9 ∧
        firstFailing 0 ps = scheduleDetail inputs := by
  have hfits := fits_shapeOf hn
  have hprimitives : maxPrimitives = 64 := rfl
  generalize hk : inputs.schedule.length = k
  generalize hdecls : inputs.declarations.length = n at *
  apply Emits.cost (c := 6 * n + 3 * k + 1 + (1024 * k + 128 + (2 * k + 2 + (3 * (k * k) + 1 +
    (4 * k + 1 + (20737 + (24833 + (322 * k + 1 + (2 * k + 1 + (16769 +
      (21248 * k + 2 + 0))))))))))) (by unfold scheduleCost; omega)
  subst hk hdecls
  apply (emits_declareInputs hx hfits).bind
  intro v₀ lanes _ hlanes
  apply (emits_buildDerived hfits hlanes).bind
  intro v₁ d h₁ hd
  have hlanes := hlanes.mono h₁
  apply (emits_checkInRange hfits hlanes).bind
  intro v₂ inRange h₂ hinRange
  apply (emits_checkDistinct hfits (hlanes.mono h₂)).bind
  intro v₃ distinct h₃ hdistinct
  have h₂₃ := h₂.trans h₃
  apply (emits_checkDeclIntegrity hfits (hlanes.mono h₂₃) (hd.mono h₂₃)).bind
  intro v₄ integrity h₄ hintegrity
  have h₂₄ := h₂₃.trans h₄
  apply (emits_checkPrereqClosure hfits (hlanes.mono h₂₄) (hd.mono h₂₄)).bind
  intro v₅ closure h₅ hclosure
  have h₂₅ := h₂₄.trans h₅
  apply (emits_checkConflictFree hfits (hlanes.mono h₂₅) (hd.mono h₂₅)).bind
  intro v₆ conflictFree h₆ hconflictFree
  have h₂₆ := h₂₅.trans h₆
  apply (emits_checkPrereqOrder hfits (hd.mono h₂₆)).bind
  intro v₇ prereqOrder h₇ hprereqOrder
  have h₂₇ := h₂₆.trans h₇
  apply (emits_checkPhaseOrder hfits (hd.mono h₂₇)).bind
  intro v₈ phaseOrder h₈ hphaseOrder
  have h₂₈ := h₂₇.trans h₈
  apply (emits_checkCoverage hfits (hlanes.mono h₂₈) (hd.mono h₂₈)).bind
  intro v₉ coverage h₉ hcoverage
  have h₂₉ := h₂₈.trans h₉
  apply (emits_checkCanonical hfits (hlanes.mono h₂₉) (hd.mono h₂₉)).bind
  intro v₁₀ canonical h₁₀ hcanonical
  apply Emits.pure
  obtain ⟨p₁, hp₁, hiff₁⟩ := hinRange
  obtain ⟨p₂, hp₂, hiff₂⟩ := hdistinct
  obtain ⟨p₃, hp₃, hiff₃⟩ := hintegrity
  obtain ⟨p₄, hp₄, hiff₄⟩ := hclosure
  obtain ⟨p₅, hp₅, hiff₅⟩ := hconflictFree
  obtain ⟨p₆, hp₆, hiff₆⟩ := hprereqOrder
  obtain ⟨p₇, hp₇, hiff₇⟩ := hphaseOrder
  obtain ⟨p₈, hp₈, hiff₈⟩ := hcoverage
  obtain ⟨p₉, hp₉, hiff₉⟩ := hcanonical
  have e₉ := h₉.trans h₁₀
  have e₈ := h₈.trans e₉
  have e₇ := h₇.trans e₈
  have e₆ := h₆.trans e₇
  have e₅ := h₅.trans e₆
  have e₄ := h₄.trans e₅
  refine ⟨[p₁, p₂, p₃, p₄, p₅, p₆, p₇, p₈, p₉], ?_, rfl, ?_⟩
  · exact .cons (hp₁.mono (h₃.trans e₄)) <| .cons (hp₂.mono e₄) <| .cons (hp₃.mono e₅) <|
      .cons (hp₄.mono e₆) <| .cons (hp₅.mono e₇) <| .cons (hp₆.mono e₈) <| .cons (hp₇.mono e₉) <|
      .cons (hp₈.mono h₁₀) <| .cons hp₉ .nil
  · exact firstFailing_eq_scheduleDetail hn hiff₁ hiff₂ hiff₃ hiff₄ hiff₅ hiff₆ hiff₇ hiff₈ hiff₉

end Batpak.Bvisor
