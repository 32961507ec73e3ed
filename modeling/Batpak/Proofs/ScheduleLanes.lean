/-
Module: Batpak.Proofs.ScheduleLanes
Purpose: The lanes of the schedule circuit: the declared fields, the gathers of each slot, and the
  placement bits.
Trusted boundary: none
Main exports: emits_declareInputs, DerivedHolds
-/
import Batpak.Proofs.CircuitMembranes
import Batpak.Proofs.ScheduleChecks

namespace Batpak.Bvisor

open Batpak.Util

variable {fieldWidth : Width} {q : Nat} {fields : List NodeId} {f : PrimitiveDeclInputs → Nat}

/-! ### The widths lose nothing -/

/-- Every field of the inputs fits its lane, and the lanes fit a word. -/
structure Fits (inputs : ScheduleInputs) (shape : ScheduleShape) : Prop where
  declarations : shape.declarations = inputs.declarations.length
  slots : shape.slots = inputs.schedule.length
  index_le : shape.indexWidth.bits ≤ 64
  phase_le : shape.phaseWidth.bits ≤ 64
  digest_le : shape.digestWidth.bits ≤ 64
  universe_le : shape.universeSize ≤ 64
  covers_le : shape.coversSize ≤ 64
  phase : ∀ d ∈ inputs.declarations, d.phase.toNat < 2 ^ shape.phaseWidth.bits
  covers : ∀ d ∈ inputs.declarations, d.covers.toNat < 2 ^ shape.coversWidth.bits
  prerequisites : ∀ d ∈ inputs.declarations,
    d.prerequisites.toNat < 2 ^ shape.universeWidth.bits
  conflicts : ∀ d ∈ inputs.declarations, d.conflicts.toNat < 2 ^ shape.universeWidth.bits
  declDigest : ∀ d ∈ inputs.declarations, d.declDigest.toNat < 2 ^ shape.digestWidth.bits
  paramDigest : ∀ d ∈ inputs.declarations, d.paramDigest.toNat < 2 ^ shape.digestWidth.bits
  slotIndex : ∀ s ∈ inputs.schedule, slotIndex s < 2 ^ shape.indexWidth.bits
  claimedDecl : ∀ s ∈ inputs.schedule, s.claimedDeclDigest.toNat < 2 ^ shape.digestWidth.bits
  claimedParam : ∀ s ∈ inputs.schedule, s.claimedParamDigest.toNat < 2 ^ shape.digestWidth.bits
  required : inputs.required.toNat < 2 ^ shape.coversWidth.bits
  count : inputs.declarations.length < 2 ^ shape.indexWidth.bits
  count_le : inputs.declarations.length ≤ shape.universeSize
  primitive : ∀ q < shape.universeSize, q < 2 ^ shape.indexWidth.bits

theorem clampWidth_bits {bits : Nat} (h : bits ≤ 64) : (clampWidth bits).bits = max bits 1 := by
  have hmax : maxWidth = 256 := rfl
  change min (max bits 1) maxWidth = _
  omega

theorem bitLength_le (value : BitVec 64) : bitLength value ≤ 64 :=
  Nat.size_le.mpr value.isLt

theorem bitsFor_le (value : BitVec 64) : (bitsFor value).bits ≤ 64 := by
  have := bitLength_le value
  unfold bitsFor
  rw [clampWidth_bits this]
  omega

theorem lt_bitsFor {n : Nat} {value : BitVec 64} (h : n ≤ value.toNat) :
    n < 2 ^ (bitsFor value).bits := by
  unfold bitsFor
  rw [clampWidth_bits (bitLength_le value)]
  calc n ≤ value.toNat := h
    _ < 2 ^ bitLength value := Nat.lt_size_self _
    _ ≤ 2 ^ max (bitLength value) 1 := Nat.pow_le_pow_right Nat.two_pos (Nat.le_max_left _ _)

theorem bitsetSpan_le (bits : BitVec 64) : bitsetSpan bits ≤ 64 := by
  unfold bitsetSpan
  split
  · omega
  · exact bitLength_le bits

/-- A set contained in another one lies below its span. -/
theorem lt_bitsetSpan {a b : BitVec 64} {w : Nat} (h : ∀ k, a.getLsbD k = true → b.getLsbD k = true)
    (hw : bitsetSpan b ≤ w) : a.toNat < 2 ^ w := by
  have hspan : b.toNat < 2 ^ bitsetSpan b := by
    unfold bitsetSpan
    split
    · rename_i hzero
      rw [hzero]
      decide
    · exact Nat.lt_size_self _
  apply Nat.lt_pow_two_of_testBit
  intro k hk
  by_contra hset
  have hb := h k (Bool.not_eq_false _ |>.mp hset)
  rw [BitVec.getLsbD, Nat.testBit_lt_two_pow
    (Nat.lt_of_lt_of_le hspan (Nat.pow_le_pow_right Nat.two_pos (hw.trans hk)))] at hb
  cases hb

theorem le_maxWord_left (a b : BitVec 64) : a.toNat ≤ (maxWord a b).toNat := by
  unfold maxWord
  split
  · assumption
  · exact Nat.le_refl _

theorem le_maxWord_right (a b : BitVec 64) : b.toNat ≤ (maxWord a b).toNat := by
  unfold maxWord
  split
  · exact Nat.le_refl _
  · omega

/-- A running maximum over several fields bounds the start and every field. -/
theorem le_foldl_max {α : Type} {step : BitVec 64 → α → BitVec 64} {fields : α → List (BitVec 64)}
    (hacc : ∀ acc a, acc.toNat ≤ (step acc a).toNat)
    (hfields : ∀ acc a, ∀ f ∈ fields a, f.toNat ≤ (step acc a).toNat) (xs : List α)
    (acc : BitVec 64) :
    acc.toNat ≤ (xs.foldl step acc).toNat ∧
      ∀ a ∈ xs, ∀ f ∈ fields a, f.toNat ≤ (xs.foldl step acc).toNat := by
  induction xs generalizing acc with
  | nil =>
      refine ⟨Nat.le_refl _, ?_⟩
      intro a ha
      cases ha
  | cons x xs ih =>
      obtain ⟨hstart, hrest⟩ := ih (step acc x)
      refine ⟨(hacc acc x).trans hstart, ?_⟩
      intro a ha f hf
      rcases List.mem_cons.mp ha with rfl | ha
      · exact (hfields acc a f hf).trans hstart
      · exact hrest a ha f hf

section Shape

variable {inputs : ScheduleInputs}

theorem universe_bits (hn : inputs.declarations.length ≤ maxPrimitives) :
    (shapeOf inputs).universeWidth.bits = max (max inputs.declarations.length (bitsetSpan
      (inputs.declarations.foldl (fun acc d => acc ||| (d.prerequisites ||| d.conflicts)) 0))) 1 := by
  have hspan := bitsetSpan_le
    (inputs.declarations.foldl (fun acc d => acc ||| (d.prerequisites ||| d.conflicts)) 0)
  have hprimitives : maxPrimitives = 64 := rfl
  have hmax : maxWidth = 256 := rfl
  change (clampWidth (min (max (max _ _) 1) maxWidth)).bits = _
  rw [clampWidth_bits (by omega)]
  omega

theorem covers_bits : (shapeOf inputs).coversWidth.bits = max (bitsetSpan
    (inputs.declarations.foldl (fun acc d => acc ||| d.covers) inputs.required)) 1 :=
  clampWidth_bits (bitsetSpan_le _)

theorem word_toNat {n : Nat} (h : n < 2 ^ 64) : (word n).toNat = n := by
  unfold word
  rw [BitVec.toNat_ofNat, Nat.mod_eq_of_lt h]

theorem fits_sets (hn : inputs.declarations.length ≤ maxPrimitives) :
    ∀ d ∈ inputs.declarations,
      d.prerequisites.toNat < 2 ^ (shapeOf inputs).universeWidth.bits ∧
        d.conflicts.toNat < 2 ^ (shapeOf inputs).universeWidth.bits := by
  intro d hd
  rw [universe_bits hn]
  have hbound : ∀ set : BitVec 64,
      (∀ k, set.getLsbD k = true → (d.prerequisites ||| d.conflicts).getLsbD k = true) →
      set.toNat < 2 ^ max (max inputs.declarations.length (bitsetSpan (inputs.declarations.foldl
        (fun acc d => acc ||| (d.prerequisites ||| d.conflicts)) 0))) 1 := by
    intro set hset
    apply lt_bitsetSpan _ ((Nat.le_max_right _ _).trans (Nat.le_max_left _ _))
    intro k hk
    exact (getLsbD_foldl_or _ _ _ _).mpr (.inr ⟨d, hd, hset k hk⟩)
  constructor
  · apply hbound
    intro k hk
    rw [BitVec.getLsbD_or, hk, Bool.true_or]
  · apply hbound
    intro k hk
    rw [BitVec.getLsbD_or, hk, Bool.or_true]

theorem fits_covers : inputs.required.toNat < 2 ^ (shapeOf inputs).coversWidth.bits ∧
    ∀ d ∈ inputs.declarations, d.covers.toNat < 2 ^ (shapeOf inputs).coversWidth.bits := by
  rw [covers_bits]
  constructor
  · apply lt_bitsetSpan _ (Nat.le_max_left _ _)
    intro k hk
    exact (getLsbD_foldl_or _ _ _ _).mpr (.inl hk)
  · intro d hd
    apply lt_bitsetSpan _ (Nat.le_max_left _ _)
    intro k hk
    exact (getLsbD_foldl_or _ _ _ _).mpr (.inr ⟨d, hd, hk⟩)

theorem fits_phase : ∀ d ∈ inputs.declarations,
    d.phase.toNat < 2 ^ (shapeOf inputs).phaseWidth.bits := by
  intro d hd
  have hmax := (@le_foldl_max _ (fun acc (d : PrimitiveDeclInputs) =>
    maxWord acc (d.phase.setWidth 64)) (fun d => [d.phase.setWidth 64])
    (fun acc a => le_maxWord_left _ _) (fun acc a f hf => by
      rw [List.mem_singleton.mp hf]
      exact le_maxWord_right _ _) inputs.declarations 0).2 d hd _ (List.mem_singleton.mpr rfl)
  rw [BitVec.toNat_setWidth_of_le (by decide)] at hmax
  exact lt_bitsFor hmax

/-- One turn of the digest maximum bounds what it had and both digests. -/
theorem le_maxWord_pair (acc a b : BitVec 64) :
    acc.toNat ≤ (maxWord (maxWord acc a) b).toNat ∧
      ∀ f ∈ [a, b], f.toNat ≤ (maxWord (maxWord acc a) b).toNat := by
  have hleft := le_maxWord_left (maxWord acc a) b
  refine ⟨(le_maxWord_left acc a).trans hleft, ?_⟩
  intro f hf
  rcases List.mem_pair.mp hf with rfl | rfl
  · exact (le_maxWord_right acc f).trans hleft
  · exact le_maxWord_right _ _

theorem fits_digests :
    (∀ d ∈ inputs.declarations, d.declDigest.toNat < 2 ^ (shapeOf inputs).digestWidth.bits ∧
      d.paramDigest.toNat < 2 ^ (shapeOf inputs).digestWidth.bits) ∧
    ∀ s ∈ inputs.schedule, s.claimedDeclDigest.toNat < 2 ^ (shapeOf inputs).digestWidth.bits ∧
      s.claimedParamDigest.toNat < 2 ^ (shapeOf inputs).digestWidth.bits := by
  have hdecls := (@le_foldl_max _ (fun acc (d : PrimitiveDeclInputs) =>
    maxWord (maxWord acc d.declDigest) d.paramDigest) (fun d => [d.declDigest, d.paramDigest])
    (fun acc a => (le_maxWord_pair _ _ _).1) (fun acc a => (le_maxWord_pair _ _ _).2)
    inputs.declarations 0).2
  have hslots := @le_foldl_max _ (fun acc (s : ScheduleSlotInputs) =>
    maxWord (maxWord acc s.claimedDeclDigest) s.claimedParamDigest)
    (fun s => [s.claimedDeclDigest, s.claimedParamDigest])
    (fun acc a => (le_maxWord_pair _ _ _).1) (fun acc a => (le_maxWord_pair _ _ _).2)
    inputs.schedule (inputs.declarations.foldl
      (fun acc d => maxWord (maxWord acc d.declDigest) d.paramDigest) 0)
  constructor
  · intro d hd
    exact ⟨lt_bitsFor ((hdecls d hd _ (by simp)).trans hslots.1),
      lt_bitsFor ((hdecls d hd _ (by simp)).trans hslots.1)⟩
  · intro s hs
    exact ⟨lt_bitsFor (hslots.2 s hs _ (by simp)), lt_bitsFor (hslots.2 s hs _ (by simp))⟩

/-- The index lane holds every slot, the number of declarations and every primitive of the
universe. -/
theorem fits_index (hn : inputs.declarations.length ≤ maxPrimitives) :
    (∀ s ∈ inputs.schedule, slotIndex s < 2 ^ (shapeOf inputs).indexWidth.bits) ∧
    inputs.declarations.length < 2 ^ (shapeOf inputs).indexWidth.bits ∧
    ∀ q < (shapeOf inputs).universeSize, q < 2 ^ (shapeOf inputs).indexWidth.bits := by
  have hspan := bitsetSpan_le
    (inputs.declarations.foldl (fun acc d => acc ||| (d.prerequisites ||| d.conflicts)) 0)
  have hprimitives : maxPrimitives = 64 := rfl
  have hwidth : maxWidth = 256 := rfl
  have hslots := @le_foldl_max _ (fun acc (s : ScheduleSlotInputs) => maxWord acc s.primitive)
    (fun s => [s.primitive]) (fun acc a => le_maxWord_left _ _) (fun acc a f hf => by
      rw [List.mem_singleton.mp hf]
      exact le_maxWord_right _ _) inputs.schedule (word inputs.declarations.length)
  have hstart := hslots.1
  rw [word_toNat (by omega)] at hstart
  refine ⟨?_, ?_, ?_⟩
  · intro s hs
    exact lt_bitsFor ((hslots.2 s hs _ (List.mem_singleton.mpr rfl)).trans (le_maxWord_left _ _))
  · exact lt_bitsFor (hstart.trans (le_maxWord_left _ _))
  · intro q hq
    apply lt_bitsFor ((_ : q ≤ (word _).toNat).trans (le_maxWord_right _ _))
    unfold ScheduleShape.universeSize at hq
    rw [universe_bits hn] at hq
    rw [word_toNat (by omega)]
    omega

theorem fits_shapeOf (hn : inputs.declarations.length ≤ maxPrimitives) :
    Fits inputs (shapeOf inputs) where
  declarations := rfl
  slots := rfl
  index_le := bitsFor_le _
  phase_le := bitsFor_le _
  digest_le := bitsFor_le _
  universe_le := by
    unfold ScheduleShape.universeSize
    rw [universe_bits hn]
    have hspan := bitsetSpan_le
      (inputs.declarations.foldl (fun acc d => acc ||| (d.prerequisites ||| d.conflicts)) 0)
    have hprimitives : maxPrimitives = 64 := rfl
    omega
  covers_le := by
    unfold ScheduleShape.coversSize
    rw [covers_bits]
    have hspan := bitsetSpan_le
      (inputs.declarations.foldl (fun acc d => acc ||| d.covers) inputs.required)
    omega
  phase := fits_phase
  covers := fits_covers.2
  prerequisites := fun d hd => (fits_sets hn d hd).1
  conflicts := fun d hd => (fits_sets hn d hd).2
  declDigest := fun d hd => (fits_digests.1 d hd).1
  paramDigest := fun d hd => (fits_digests.1 d hd).2
  slotIndex := (fits_index hn).1
  claimedDecl := fun s hs => (fits_digests.2 s hs).1
  claimedParam := fun s hs => (fits_digests.2 s hs).2
  required := fits_covers.1
  count := (fits_index hn).2.1
  count_le := by
    unfold ScheduleShape.universeSize
    rw [universe_bits hn]
    omega
  primitive := (fits_index hn).2.2

end Shape

/-! ### The declared lanes -/

/-- The input lanes hold the declarations, the slots and the required set. -/
structure ScheduleHolds (v : List Lane) (shape : ScheduleShape) (lanes : ScheduleLanes)
    (inputs : ScheduleInputs) : Prop where
  phase : Lanes v shape.phaseWidth.bits lanes.phase (·.phase.toNat) inputs.declarations
  covers : Lanes v shape.coversWidth.bits lanes.covers (·.covers.toNat) inputs.declarations
  prereq : Lanes v shape.universeWidth.bits lanes.prereq (·.prerequisites.toNat)
    inputs.declarations
  conflict : Lanes v shape.universeWidth.bits lanes.conflict (·.conflicts.toNat)
    inputs.declarations
  declDigest : Lanes v shape.digestWidth.bits lanes.declDigest (·.declDigest.toNat)
    inputs.declarations
  paramDigest : Lanes v shape.digestWidth.bits lanes.paramDigest (·.paramDigest.toNat)
    inputs.declarations
  slotIndex : Lanes v shape.indexWidth.bits lanes.slotIndex slotIndex inputs.schedule
  slotDecl : Lanes v shape.digestWidth.bits lanes.slotDecl (·.claimedDeclDigest.toNat)
    inputs.schedule
  slotParam : Lanes v shape.digestWidth.bits lanes.slotParam (·.claimedParamDigest.toNat)
    inputs.schedule
  required : Word v shape.coversWidth.bits lanes.required inputs.required.toNat

section Declared

variable {x v v' r : List Lane} {shape : ScheduleShape} {lanes : ScheduleLanes}
  {inputs : ScheduleInputs}

theorem ScheduleHolds.mono (h : ScheduleHolds v shape lanes inputs) (hext : v <+: v') :
    ScheduleHolds v' shape lanes inputs :=
  ⟨h.phase.mono hext, h.covers.mono hext, h.prereq.mono hext, h.conflict.mono hext,
    h.declDigest.mono hext, h.paramDigest.mono hext, h.slotIndex.mono hext, h.slotDecl.mono hext,
    h.slotParam.mono hext, h.required.mono hext⟩

/-- Declaring the inputs costs one node a lane. -/
theorem emits_declareInputs (hx : x.length ≤ u16Max + 1) (hfits : Fits inputs shape) :
    Emits x (6 * inputs.declarations.length + 3 * inputs.schedule.length + 1)
      (encodeSchedule inputs shape ++ r) r v (declareInputs shape) fun v' lanes =>
        ScheduleHolds v' shape lanes inputs := by
  generalize hn : inputs.declarations.length = n
  generalize hk : inputs.schedule.length = k
  apply Emits.cost (c := n + (n + (n + (n + (n + (n + (k + (k + (k + (1 + 0)))))))))) (by omega)
  unfold encodeSchedule declareInputs
  have hphase : ∀ d : PrimitiveDeclInputs, (d.phase.setWidth 64).toNat = d.phase.toNat :=
    fun d => BitVec.toNat_setWidth_of_le (by decide)
  simp only [lane_eq, hphase, List.append_assoc, hfits.declarations, hfits.slots]
  subst hn hk
  apply (emits_lanes (·.phase.toNat) inputs.declarations hx).bind
  intro v₁ phase h₁ hphase
  apply (emits_lanes (·.covers.toNat) inputs.declarations hx).bind
  intro v₂ covers h₂ hcovers
  apply (emits_lanes (·.prerequisites.toNat) inputs.declarations hx).bind
  intro v₃ prereq h₃ hprereq
  apply (emits_lanes (·.conflicts.toNat) inputs.declarations hx).bind
  intro v₄ conflict h₄ hconflict
  apply (emits_lanes (·.declDigest.toNat) inputs.declarations hx).bind
  intro v₅ declDigest h₅ hdeclDigest
  apply (emits_lanes (·.paramDigest.toNat) inputs.declarations hx).bind
  intro v₆ paramDigest h₆ hparamDigest
  apply (emits_lanes slotIndex inputs.schedule hx).bind
  intro v₇ slots h₇ hslots
  apply (emits_lanes (·.claimedDeclDigest.toNat) inputs.schedule hx).bind
  intro v₈ slotDecl h₈ hslotDecl
  apply (emits_lanes (·.claimedParamDigest.toNat) inputs.schedule hx).bind
  intro v₉ slotParam h₉ hslotParam
  apply (emits_input hx (length_laneOf _ _)).bind
  intro v₁₀ required h₁₀ hrequired
  apply Emits.pure
  have h₉' := h₉.trans h₁₀
  have h₈' := h₈.trans h₉'
  have h₇' := h₇.trans h₈'
  have h₆' := h₆.trans h₇'
  have h₅' := h₅.trans h₆'
  have h₄' := h₄.trans h₅'
  have h₃' := h₃.trans h₄'
  exact ⟨hphase.mono (h₂.trans h₃'), hcovers.mono h₃', hprereq.mono h₄', hconflict.mono h₅',
    hdeclDigest.mono h₆', hparamDigest.mono h₇', hslots.mono h₈', hslotDecl.mono h₉',
    hslotParam.mono h₁₀, hrequired⟩

end Declared

/-! ### Gathered fields -/

section Gather

variable {x v v' r : List Lane} {shape : ScheduleShape} {lanes : ScheduleLanes}
  {inputs : ScheduleInputs}

/-- The select chain from field `q` on picks the field with the index of the slot, else what
it started with. -/
theorem emits_gatherFrom {indexWidth : Width} {slot acc : NodeId} {p m : Nat}
    {decls : List PrimitiveDeclInputs} (hindex : indexWidth.bits ≤ 64)
    (hp : p < 2 ^ indexWidth.bits) (hq : q + decls.length ≤ 2 ^ indexWidth.bits)
    (hslot : Word v indexWidth.bits slot p) (hacc : Word v fieldWidth.bits acc m)
    (hfields : Lanes v fieldWidth.bits fields f decls) :
    Emits x (3 * decls.length) r r v (gatherFrom slot indexWidth fieldWidth acc q fields)
      fun v' id => Word v' fieldWidth.bits id
        (((if q ≤ p then decls[p - q]? else none).map f).getD m) := by
  induction decls generalizing v acc q m fields with
  | nil =>
      cases hfields
      apply Emits.pure
      simpa using hacc
  | cons d decls ih =>
      cases hfields with
      | @cons field _ fields _ hfield hrest =>
          rw [List.length_cons] at hq ⊢
          have hcost : 1 + (1 + (1 + 3 * decls.length)) = 3 * (decls.length + 1) := by omega
          have hword : (word q).toNat = q := by
            apply word_toNat
            have := Nat.pow_le_pow_right Nat.two_pos hindex
            omega
          rw [← hcost]
          apply (emits_konst hindex).bind
          intro v₁ qConst h₁ hqConst
          rw [hword] at hqConst
          apply (emits_equal hp (by omega) (hslot.mono h₁) hqConst).bind
          intro v₂ isQ h₂ hisQ
          obtain ⟨b, hb, hbit⟩ := hisQ
          have h₁₂ := h₁.trans h₂
          apply (emits_select hb (hfield.mono h₁₂) (hacc.mono h₁₂)).bind
          intro v₃ acc' h₃ hacc'
          have hext := h₁₂.trans h₃
          apply (ih (by omega) (hslot.mono hext) hacc'
            (Lanes.mono hrest hext)).weaken (Nat.le_refl _)
          intro v₄ id _ hid
          rcases Nat.lt_trichotomy p q with hlt | heq | hgt
          · have hfalse : b = false := Bool.eq_false_iff.mpr fun h => absurd (hbit.mp h) (by omega)
            rw [hfalse, if_neg (by omega)] at hid
            rw [if_neg (by omega)]
            exact hid
          · rw [hbit.mpr heq, if_neg (by omega)] at hid
            rw [if_pos (by omega), heq, Nat.sub_self]
            exact hid
          · have hfalse : b = false := Bool.eq_false_iff.mpr fun h => absurd (hbit.mp h) (by omega)
            have hsub : p - q = p - (q + 1) + 1 := by omega
            rw [hfalse, if_pos (by omega)] at hid
            rw [if_pos (by omega), hsub, List.getElem?_cons_succ]
            exact hid

theorem emits_gather {indexWidth : Width} {slot : NodeId} {p : Nat} (hindex : indexWidth.bits ≤ 64)
    (hfield : fieldWidth.bits ≤ 64) (hp : p < 2 ^ indexWidth.bits)
    (hcount : inputs.declarations.length ≤ 2 ^ indexWidth.bits) (hdefault : f default = 0)
    (hslot : Word v indexWidth.bits slot p)
    (hfields : Lanes v fieldWidth.bits fields f inputs.declarations) :
    Emits x (3 * inputs.declarations.length + 1) r r v (gather slot fields indexWidth fieldWidth)
      fun v' id => Word v' fieldWidth.bits id (f (inputs.decl p)) := by
  apply Emits.cost (c := 1 + 3 * inputs.declarations.length) (by omega)
  apply (emits_konst hfield).bind
  intro v₁ acc h₁ hacc
  apply (emits_gatherFrom hindex hp (by omega) (hslot.mono h₁) hacc (hfields.mono h₁)).weaken
    (Nat.le_refl _)
  intro v₂ id _ hid
  rw [if_pos (Nat.zero_le p), Nat.sub_zero] at hid
  have hvalue : (inputs.declarations[p]?.map f).getD (0 : BitVec 64).toNat = f (inputs.decl p) := by
    unfold ScheduleInputs.decl
    rw [List.getD_eq_getElem?_getD]
    cases inputs.declarations[p]? with
    | none => exact hdefault.symm
    | some d => rfl
  rw [hvalue] at hid
  exact hid

theorem emits_buildGathers (hfits : Fits inputs shape) (hfield : fieldWidth.bits ≤ 64)
    (hdefault : f default = 0) (h : ScheduleHolds v shape lanes inputs)
    (hfields : Lanes v fieldWidth.bits fields f inputs.declarations) :
    Emits x (inputs.schedule.length * (3 * inputs.declarations.length + 1)) r r v
      (buildGathers lanes shape fields fieldWidth) fun v' ids =>
        Lanes v' fieldWidth.bits ids (fun s => f (inputs.decl (slotIndex s))) inputs.schedule := by
  apply (emits_collect₂ (fun v slot s => Word v shape.indexWidth.bits slot (slotIndex s) ∧
    Lanes v fieldWidth.bits fields f inputs.declarations)
    (fun s v id => Word v fieldWidth.bits id (f (inputs.decl (slotIndex s))))
    (fun hext hrel => ⟨hrel.1.mono hext, hrel.2.mono hext⟩)
    (fun _ _ _ _ hext hid => Word.mono hid hext)
    (h.slotIndex.imp fun _ _ hslot => ⟨hslot, hfields⟩) _).weaken (Nat.le_refl _)
  · intro v' ids _ hids
    exact hids.flip
  · intro slot s hs v' _ hrel
    exact emits_gather hfits.index_le hfield (hfits.slotIndex s hs) hfits.count.le hdefault hrel.1
      hrel.2

end Gather

/-! ### Placements -/

section Placements

variable {x v v' r : List Lane} {shape : ScheduleShape} {lanes : ScheduleLanes}
  {inputs : ScheduleInputs}

/-- The placement bits of a primitive over slots that follow the primitives in `seen`. -/
structure Placed (v : List Lane) (q : Nat) (seen order : List Nat)
    (out : List (NodeId × NodeId) × NodeId) : Prop where
  before : ∀ i < order.length, Bit v (out.1.getD i (0, 0)).1 (q ∈ seen ++ order.take i)
  upto : ∀ i < order.length, Bit v (out.1.getD i (0, 0)).2 (q ∈ seen ++ order.take (i + 1))
  present : Bit v out.2 (q ∈ seen ++ order)

theorem Placed.mono {seen order : List Nat} {out : List (NodeId × NodeId) × NodeId}
    (h : Placed v q seen order out) (hext : v <+: v') : Placed v' q seen order out :=
  ⟨fun i hi => (h.before i hi).mono hext, fun i hi => (h.upto i hi).mono hext,
    h.present.mono hext⟩

theorem emits_placements {w : Nat} {qConst running : NodeId} {slots : List NodeId}
    {seen order : List Nat} (hq : q < 2 ^ w) (horder : ∀ p ∈ order, p < 2 ^ w)
    (hqConst : Word v w qConst q) (hrunning : Bit v running (q ∈ seen))
    (hslots : Lanes v w slots (fun p => p) order) :
    Emits x (2 * order.length) r r v (placements qConst running slots) fun v' out =>
      Placed v' q seen order out := by
  induction order generalizing v running slots seen with
  | nil =>
      cases hslots
      apply Emits.pure
      refine ⟨?_, ?_, ?_⟩
      · intro i hi
        cases hi
      · intro i hi
        cases hi
      · rw [List.append_nil]
        exact hrunning
  | cons p order ih =>
      cases hslots with
      | @cons slot _ slots _ hslot hrest =>
          rw [List.length_cons]
          have hcost : 1 + (1 + (2 * order.length + 0)) = 2 * (order.length + 1) := by omega
          rw [← hcost]
          apply (emits_equal (horder p List.mem_cons_self) hq hslot hqConst).bind
          intro v₁ eq h₁ heq
          apply (emits_or (hrunning.mono h₁) heq).bind
          intro v₂ up h₂ hup
          have hseen : Bit v₂ up (q ∈ seen ++ [p]) := by
            apply hup.congr
            rw [List.mem_append, List.mem_singleton, eq_comm]
          have h₁₂ := h₁.trans h₂
          apply (ih (fun p' hp' => horder p' (List.mem_cons_of_mem _ hp')) (hqConst.mono h₁₂) hseen
            (Lanes.mono hrest h₁₂)).bind
          intro v₃ out h₃ hout
          apply Emits.pure
          have hcons : ∀ ps : List Nat, seen ++ [p] ++ ps = seen ++ p :: ps := by simp
          refine ⟨?_, ?_, ?_⟩
          · intro i hi
            cases i with
            | zero =>
                apply (hrunning.mono (h₁₂.trans h₃)).congr
                simp
            | succ i =>
                have hbit := hout.before i (Nat.lt_of_succ_lt_succ hi)
                rw [hcons] at hbit
                exact hbit
          · intro i hi
            cases i with
            | zero => exact hseen.mono h₃
            | succ i =>
                have hbit := hout.upto i (Nat.lt_of_succ_lt_succ hi)
                rw [hcons] at hbit
                exact hbit
          · have hbit := hout.present
            rw [hcons] at hbit
            exact hbit

theorem ScheduleHolds.order (h : ScheduleHolds v shape lanes inputs) :
    Lanes v shape.indexWidth.bits lanes.slotIndex (fun p => p) inputs.order := by
  unfold Lanes ScheduleInputs.order
  rw [List.forall₂_map_right_iff]
  exact h.slotIndex

theorem order_lt (hfits : Fits inputs shape) :
    ∀ p ∈ inputs.order, p < 2 ^ shape.indexWidth.bits := by
  intro p hp
  obtain ⟨slot, hslot, rfl⟩ := List.mem_map.mp hp
  exact hfits.slotIndex slot hslot

theorem emits_primitivePlacements (hfits : Fits inputs shape) (hq : q < shape.universeSize)
    (h : ScheduleHolds v shape lanes inputs) :
    Emits x (2 * inputs.schedule.length + 2) r r v (primitivePlacements lanes shape q)
      fun v' out => Placed v' q [] inputs.order out := by
  have hlength : inputs.order.length = inputs.schedule.length := List.length_map _
  apply Emits.cost (c := 1 + (1 + 2 * inputs.order.length)) (by omega)
  have hword : (word q).toNat = q := by
    apply word_toNat
    have := hfits.universe_le
    omega
  apply (emits_konst hfits.index_le).bind
  intro v₁ qConst h₁ hqConst
  rw [hword] at hqConst
  apply (emits_konst (by decide)).bind
  intro v₂ running h₂ hrunning
  have hnone : Bit v₂ running (q ∈ ([] : List Nat)) := ⟨false, hrunning, by simp⟩
  exact emits_placements (hfits.primitive q hq) (order_lt hfits) (hqConst.mono h₂) hnone
    (h.mono (h₁.trans h₂)).order

/-- What the derived nodes hold: the placement of every primitive of the universe and the
declared fields of every slot. -/
structure DerivedHolds (v : List Lane) (shape : ScheduleShape) (d : Derived)
    (inputs : ScheduleInputs) : Prop where
  placed : ∀ q < shape.universeSize, Placed v q [] inputs.order (d.placed.getD q ([], 0))
  gphase : Lanes v shape.phaseWidth.bits d.gphase
    (fun s => (inputs.decl (slotIndex s)).phase.toNat) inputs.schedule
  gprereq : Lanes v shape.universeWidth.bits d.gprereq
    (fun s => (inputs.decl (slotIndex s)).prerequisites.toNat) inputs.schedule
  gdecl : Lanes v shape.digestWidth.bits d.gdecl
    (fun s => (inputs.decl (slotIndex s)).declDigest.toNat) inputs.schedule
  gparam : Lanes v shape.digestWidth.bits d.gparam
    (fun s => (inputs.decl (slotIndex s)).paramDigest.toNat) inputs.schedule

namespace DerivedHolds

variable {d : Derived} {q i : Nat}

theorem mono (h : DerivedHolds v shape d inputs) (hext : v <+: v') :
    DerivedHolds v' shape d inputs :=
  ⟨fun q hq => (h.placed q hq).mono hext, h.gphase.mono hext, h.gprereq.mono hext,
    h.gdecl.mono hext, h.gparam.mono hext⟩

theorem present (h : DerivedHolds v shape d inputs) (hq : q < shape.universeSize) :
    Bit v (d.present q) (q ∈ inputs.order) :=
  (h.placed q hq).present

theorem before (h : DerivedHolds v shape d inputs) (hq : q < shape.universeSize)
    (hi : i < inputs.schedule.length) : Bit v (d.before i q) (q ∈ inputs.order.take i) :=
  (h.placed q hq).before i (by simpa [ScheduleInputs.order] using hi)

theorem upto (h : DerivedHolds v shape d inputs) (hq : q < shape.universeSize)
    (hi : i < inputs.schedule.length) : Bit v (d.upto i q) (q ∈ inputs.order.take (i + 1)) :=
  (h.placed q hq).upto i (by simpa [ScheduleInputs.order] using hi)

end DerivedHolds

theorem emits_buildDerived (hfits : Fits inputs shape) (h : ScheduleHolds v shape lanes inputs) :
    Emits x (1024 * inputs.schedule.length + 128) r r v (buildDerived lanes shape) fun v' d =>
      DerivedHolds v' shape d inputs := by
  have hcount := hfits.count_le
  have huniverse := hfits.universe_le
  generalize hk : inputs.schedule.length = k at *
  generalize hn : inputs.declarations.length = n at *
  have hplaced : shape.universeSize * (2 * k + 2) ≤ 64 * (2 * k + 2) :=
    Nat.mul_le_mul_right _ huniverse
  have hgather : k * (3 * n + 1) ≤ k * 193 := Nat.mul_le_mul_left _ (by omega)
  apply Emits.cost (c := (List.range shape.universeSize).length * (2 * k + 2) +
    (k * (3 * n + 1) + (k * (3 * n + 1) + (k * (3 * n + 1) + (k * (3 * n + 1) + 0)))))
    (by rw [List.length_range]; omega)
  subst hk hn
  apply (emits_collect (fun q v out => Placed v q [] inputs.order out)
    (fun _ _ _ _ hext hout => hout.mono hext) _).bind
  · intro v₁ placed h₁ hplaced
    apply (emits_buildGathers hfits hfits.phase_le rfl (h.mono h₁) (h.phase.mono h₁)).bind
    intro v₂ gphase h₂ hgphase
    have h₁₂ := h₁.trans h₂
    apply (emits_buildGathers hfits hfits.universe_le rfl (h.mono h₁₂) (h.prereq.mono h₁₂)).bind
    intro v₃ gprereq h₃ hgprereq
    have h₁₃ := h₁₂.trans h₃
    apply (emits_buildGathers hfits hfits.digest_le rfl (h.mono h₁₃) (h.declDigest.mono h₁₃)).bind
    intro v₄ gdecl h₄ hgdecl
    have h₁₄ := h₁₃.trans h₄
    apply (emits_buildGathers hfits hfits.digest_le rfl (h.mono h₁₄) (h.paramDigest.mono h₁₄)).bind
    intro v₅ gparam h₅ hgparam
    apply Emits.pure
    have h₄₅ := h₄.trans h₅
    have h₃₅ := h₃.trans h₄₅
    refine ⟨?_, hgphase.mono h₃₅, hgprereq.mono h₄₅, hgdecl.mono h₅, hgparam⟩
    intro q hq
    have hlt : q < placed.length := by
      rw [← hplaced.length_eq, List.length_range]
      exact hq
    have hout := hplaced.get (by rw [List.length_range]; exact hq) hlt
    rw [List.get_eq_getElem, List.getElem_range, List.get_eq_getElem] at hout
    change Placed v₅ q [] inputs.order (placed.getD q ([], 0))
    rw [List.getD_eq_getElem _ _ hlt]
    exact hout.mono (h₂.trans h₃₅)
  · intro q hq v' hext
    exact emits_primitivePlacements hfits (List.mem_range.mp hq) (h.mono hext)

end Placements

end Batpak.Bvisor
