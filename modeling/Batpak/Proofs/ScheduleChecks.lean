/-
Module: Batpak.Proofs.ScheduleChecks
Purpose: What each check of the schedule membrane says about the supplied order, in a universe
  of at most maxPrimitives and beyond it.
Trusted boundary: none
Main exports: the check lemmas, AdmissibleInWord
-/
import Batpak.Bvisor.Schedule
import Batpak.Util.CanonicalOrder

namespace Batpak.Bvisor

open Batpak.Util

variable {n : Nat} {seen pos : List Nat} {present : BitVec 64} {inputs : ScheduleInputs}

/-! ### The order and the nine conditions -/

namespace ScheduleInputs

/-- The primitives in the supplied order. -/
def order (inputs : ScheduleInputs) : List Nat :=
  inputs.schedule.map slotIndex

def decl (inputs : ScheduleInputs) (p : Nat) : PrimitiveDeclInputs :=
  inputs.declarations.getD p default

def Needs (inputs : ScheduleInputs) (p r : Nat) : Prop :=
  (inputs.decl p).prerequisites.getLsbD r = true

def key (inputs : ScheduleInputs) (p : Nat) : Nat ×ₗ Nat :=
  toLex ((inputs.decl p).phase.toNat, p)

def InRange (inputs : ScheduleInputs) : Prop :=
  ∀ p ∈ inputs.order, p < inputs.declarations.length

def Distinct (inputs : ScheduleInputs) : Prop :=
  inputs.order.Nodup

def Integrity (inputs : ScheduleInputs) : Prop :=
  ∀ slot ∈ inputs.schedule,
    slot.claimedDeclDigest = (inputs.decl (slotIndex slot)).declDigest ∧
      slot.claimedParamDigest = (inputs.decl (slotIndex slot)).paramDigest

def Closed (inputs : ScheduleInputs) : Prop :=
  ∀ p ∈ inputs.order, ∀ r, inputs.Needs p r → r ∈ inputs.order

def ConflictFree (inputs : ScheduleInputs) : Prop :=
  ∀ p ∈ inputs.order, ∀ q ∈ inputs.order, q ≠ p → (inputs.decl p).conflicts.getLsbD q = false

/-- What the primitive needs of the scheduled set is placed before slot `i`. -/
def PlacedBefore (inputs : ScheduleInputs) (i p : Nat) : Prop :=
  ∀ r, inputs.Needs p r → r ∈ inputs.order → r ∈ inputs.order.take i

def PrereqsFirst (inputs : ScheduleInputs) : Prop :=
  ∀ i p, inputs.order[i]? = some p → inputs.PlacedBefore i p

def PhasesAscend (inputs : ScheduleInputs) : Prop :=
  ∀ e ∈ inputs.order.zip inputs.order.tail,
    (inputs.decl e.1).phase.toNat ≤ (inputs.decl e.2).phase.toNat

def Covered (inputs : ScheduleInputs) : Prop :=
  ∀ c, inputs.required.getLsbD c = true →
    ∃ p ∈ inputs.order, (inputs.decl p).covers.getLsbD c = true

def Canonical (inputs : ScheduleInputs) : Prop :=
  ∀ i p, inputs.order[i]? = some p → ∀ q ∈ inputs.order.drop (i + 1),
    inputs.PlacedBefore i q → ¬inputs.key q < inputs.key p

/-- No primitive that the word can hold is named twice. -/
def DistinctInWord (inputs : ScheduleInputs) : Prop :=
  (inputs.order.filter (· < 64)).Nodup

/-- No primitive that the word can hold was passed over. -/
def CanonicalInWord (inputs : ScheduleInputs) : Prop :=
  ∀ i p, inputs.order[i]? = some p → ∀ q ∈ inputs.order.drop (i + 1), q < 64 →
    inputs.PlacedBefore i q → ¬inputs.key q < inputs.key p

section Word

variable {inputs : ScheduleInputs}

theorem lt_word (hn : inputs.declarations.length ≤ maxPrimitives) (h : inputs.InRange) :
    ∀ q ∈ inputs.order, q < 64 :=
  fun q hq => Nat.lt_of_lt_of_le (h q hq) hn

theorem distinctInWord_iff (hn : inputs.declarations.length ≤ maxPrimitives)
    (h : inputs.InRange) : inputs.DistinctInWord ↔ inputs.Distinct := by
  have hall : inputs.order.filter (· < 64) = inputs.order :=
    List.filter_eq_self.mpr fun q hq => decide_eq_true (lt_word hn h q hq)
  rw [DistinctInWord, hall]
  rfl

theorem canonicalInWord_iff (hn : inputs.declarations.length ≤ maxPrimitives)
    (h : inputs.InRange) : inputs.CanonicalInWord ↔ inputs.Canonical := by
  constructor
  · intro hcanonical i p hp q hq
    exact hcanonical i p hp q hq (lt_word hn h q (List.mem_of_mem_drop hq))
  · intro hcanonical i p hp q hq _
    exact hcanonical i p hp q hq

end Word

end ScheduleInputs

/-! ### The verified view -/

/-- A primitive past the word has no bit. -/
theorem getLsbD_bit (p q : Nat) : (bit p).getLsbD q = decide (q = p ∧ q < 64) := by
  unfold bit
  rw [BitVec.getLsbD_shiftLeft]
  by_cases hq : q = p
  · simp [hq]
  · rcases Nat.lt_or_gt_of_ne hq with hlt | hgt
    · simp [hq, hlt]
    · have hsub : q - p ≠ 0 := Nat.sub_ne_zero_of_lt hgt
      simp [hq, BitVec.getLsbD_one, hsub]

theorem bit_getLsbD {p : Nat} (hp : p < 64) (q : Nat) :
    (bit p).getLsbD q = decide (q = p) := by
  rw [getLsbD_bit]
  by_cases hq : q = p
  · simp [hq, hp]
  · simp [hq]

/-- What the view of an accepted order is made of. -/
structure Views (inputs : ScheduleInputs) (v : Verified) : Prop where
  decls : v.decls = inputs.declarations
  schedule : v.schedule = inputs.schedule
  required : v.required = inputs.required
  present : ∀ q, v.present.getLsbD q = true ↔ q ∈ inputs.order ∧ q < 64
  pos : ∀ q ∈ inputs.order, q < 64 → v.posOf q = inputs.order.idxOf q
  places : v.pos.length = inputs.declarations.length

section Build

/-- The primitives seen so far, as the set and the table remember them. -/
structure Seen (n : Nat) (seen : List Nat) (present : BitVec 64) (pos : List Nat) : Prop where
  nodup : (seen.filter (· < 64)).Nodup
  places : pos.length = n
  present : ∀ q, present.getLsbD q = true ↔ q ∈ seen ∧ q < 64
  pos : ∀ q ∈ seen, q < 64 → pos.getD q usizeMax = seen.idxOf q

/-- The set holds a primitive when it was seen and the word can hold it. -/
theorem Seen.holds_iff (h : Seen n seen present pos) (p : Nat) :
    present &&& bit p ≠ 0 ↔ p ∈ seen ∧ p < 64 := by
  rw [← h.present, ne_eq, disjoint_iff]
  constructor
  · intro hmeet
    by_contra hfalse
    apply hmeet
    intro q hq
    rw [getLsbD_bit, decide_eq_false_iff_not]
    rintro ⟨rfl, -⟩
    exact hfalse hq
  · intro hset hall
    have hfalse := hall _ hset
    rw [getLsbD_bit] at hfalse
    have hlt := ((h.present p).mp hset).2
    simp [hlt] at hfalse

/-- One more primitive that the set does not hold. -/
theorem Seen.add (h : Seen n seen present pos) {p : Nat} (hp : p < n) (hnew : ¬(p ∈ seen ∧ p < 64)) :
    Seen n (seen ++ [p]) (present ||| bit p) (pos.set p seen.length) := by
  constructor
  case nodup =>
    rw [List.filter_append, List.nodup_append]
    refine ⟨h.nodup, (List.pairwise_singleton _ p).sublist List.filter_sublist, ?_⟩
    rintro a ha b hb rfl
    obtain ⟨ha, hlt⟩ := List.mem_filter.mp ha
    obtain ⟨hb, -⟩ := List.mem_filter.mp hb
    rw [List.mem_singleton] at hb
    subst hb
    exact hnew ⟨ha, of_decide_eq_true hlt⟩
  case places => rw [List.length_set, h.places]
  case present =>
    intro q
    rw [BitVec.getLsbD_or, getLsbD_bit, Bool.or_eq_true, h.present, List.mem_append,
      List.mem_singleton, decide_eq_true_eq]
    tauto
  case pos =>
    intro q hq hlt
    rw [List.getD_eq_getElem?_getD]
    by_cases hqp : q = p
    · subst hqp
      have hnot : q ∉ seen := fun hmem => hnew ⟨hmem, hlt⟩
      rw [List.idxOf_append_of_notMem hnot, List.getElem?_set_self (h.places ▸ hp)]
      simp
    · have hmem : q ∈ seen :=
        (List.mem_append.mp hq).resolve_right fun heq => hqp (List.mem_singleton.mp heq)
      rw [List.idxOf_append_of_mem hmem, ← h.pos q hmem hlt, List.getD_eq_getElem?_getD,
        List.getElem?_set_ne (Ne.symm hqp)]

/-- The loop over the slots: it fails on a repetition that the set can see, and else records
every place. -/
theorem place_spec {slots : List ScheduleSlotInputs} (hslots : ∀ slot ∈ slots, slotIndex slot < n)
    (h : Seen n seen present pos) :
    (((seen ++ slots.map slotIndex).filter (· < 64)).Nodup → ∃ present' pos',
      Verified.place seen.length slots present pos = .ok (present', pos') ∧
      Seen n (seen ++ slots.map slotIndex) present' pos') ∧
    (¬((seen ++ slots.map slotIndex).filter (· < 64)).Nodup →
      Verified.place seen.length slots present pos = .error .duplicatePrimitive) := by
  induction slots generalizing seen present pos with
  | nil =>
      simp only [List.map_nil, List.append_nil]
      exact ⟨fun _ => ⟨present, pos, rfl, h⟩, fun hrepeat => absurd h.nodup hrepeat⟩
  | cons slot rest ih =>
      have hp : slotIndex slot < n := hslots slot List.mem_cons_self
      have hcons : seen ++ (slot :: rest).map slotIndex =
          (seen ++ [slotIndex slot]) ++ rest.map slotIndex := by simp
      rw [hcons]
      unfold Verified.place
      by_cases hmem : slotIndex slot ∈ seen ∧ slotIndex slot < 64
      · rw [if_pos ((h.holds_iff _).mpr hmem)]
        have hrepeat : ¬(((seen ++ [slotIndex slot]) ++ rest.map slotIndex).filter
            (· < 64)).Nodup := by
          rw [List.filter_append, List.filter_append]
          intro hnodup
          have hsplit := List.nodup_append.mp (List.nodup_append.mp hnodup).1
          have hlow := decide_eq_true hmem.2
          exact hsplit.2.2 _ (List.mem_filter.mpr ⟨hmem.1, hlow⟩) _
            (List.mem_filter.mpr ⟨List.mem_singleton.mpr rfl, hlow⟩) rfl
        exact ⟨fun hnodup => absurd hnodup hrepeat, fun _ => rfl⟩
      · rw [if_neg (fun hholds => hmem ((h.holds_iff _).mp hholds))]
        have hstep := ih (fun s hs => hslots s (List.mem_cons_of_mem _ hs)) (h.add hp hmem)
        rw [List.length_append, List.length_singleton] at hstep
        exact hstep

variable {inputs : ScheduleInputs}

theorem build_outOfRange (h : ¬inputs.InRange) :
    Verified.build inputs = .error .indexOutOfRange := by
  have hany : (inputs.schedule.any fun slot =>
      decide (inputs.declarations.length ≤ slot.primitive.toNat)) = true := by
    rw [List.any_eq_true]
    simp only [ScheduleInputs.InRange, ScheduleInputs.order, List.mem_map, not_forall, not_lt] at h
    obtain ⟨p, ⟨slot, hslot, rfl⟩, hp⟩ := h
    exact ⟨slot, hslot, decide_eq_true hp⟩
  unfold Verified.build
  simp only [hany, if_true]

theorem any_outOfRange (h : inputs.InRange) : ¬(inputs.schedule.any fun slot =>
    decide (inputs.declarations.length ≤ slot.primitive.toNat)) = true := by
  rw [List.any_eq_true]
  rintro ⟨slot, hslot, hle⟩
  exact absurd (h _ (List.mem_map_of_mem hslot)) (Nat.not_lt.mpr (of_decide_eq_true hle))

theorem place_start (h : inputs.InRange) :
    (inputs.DistinctInWord → ∃ present pos,
      Verified.place 0 inputs.schedule 0
        (List.replicate inputs.declarations.length usizeMax) = .ok (present, pos) ∧
      Seen inputs.declarations.length inputs.order present pos) ∧
    (¬inputs.DistinctInWord → Verified.place 0 inputs.schedule 0
      (List.replicate inputs.declarations.length usizeMax) = .error .duplicatePrimitive) := by
  have hempty : Seen inputs.declarations.length [] 0
      (List.replicate inputs.declarations.length usizeMax) :=
    ⟨List.nodup_nil, List.length_replicate, by simp, by simp⟩
  exact place_spec (fun slot hslot => h _ (List.mem_map_of_mem hslot)) hempty

theorem build_duplicate (h : inputs.InRange) (hdup : ¬inputs.DistinctInWord) :
    Verified.build inputs = .error .duplicatePrimitive := by
  unfold Verified.build
  rw [if_neg (any_outOfRange h), (place_start h).2 hdup]
  rfl

theorem build_views (h : inputs.InRange) (hdistinct : inputs.DistinctInWord) :
    ∃ v, Verified.build inputs = .ok v ∧ Views inputs v := by
  obtain ⟨present, pos, hplace, hseen⟩ := (place_start h).1 hdistinct
  refine ⟨⟨_, _, _, present, pos⟩, ?_, rfl, rfl, rfl, hseen.present, hseen.pos, hseen.places⟩
  unfold Verified.build
  rw [if_neg (any_outOfRange h), hplace]
  rfl

end Build

/-! ### The checks on the view -/

section Checks

variable {inputs : ScheduleInputs} {v : Verified}

theorem Views.decl_eq (h : Views inputs v) (p : Nat) : v.decl p = inputs.decl p := by
  unfold Verified.decl
  rw [h.decls]
  rfl

theorem Views.key_eq (h : Views inputs v) (p : Nat) : v.key p = inputs.key p := by
  unfold Verified.key
  rw [h.decl_eq]
  rfl

/-- The guarded refusals all have this form. -/
theorem ite_refusal_eq_none {c : Bool} {reason : ScheduleRefusal} :
    (if c = true then some reason else none) = none ↔ c = false := by
  cases c with
  | true => simp
  | false => simp

theorem any_slots {f : ScheduleSlotInputs → Bool} (h : Views inputs v) :
    v.schedule.any f = false ↔ ∀ slot ∈ inputs.schedule, f slot = false := by
  rw [h.schedule, List.any_eq_false]
  simp

theorem Views.declIntegrity (h : Views inputs v) :
    v.declIntegrity = none ↔ inputs.Integrity := by
  unfold Verified.declIntegrity
  rw [ite_refusal_eq_none, any_slots h]
  apply forall_congr'
  intro slot
  rw [h.decl_eq]
  simp

theorem Views.prereqClosure (h : Views inputs v) :
    v.prereqClosure = none ↔ inputs.Closed := by
  unfold Verified.prereqClosure
  rw [ite_refusal_eq_none, any_slots h]
  simp only [ScheduleInputs.Closed, ScheduleInputs.order, List.forall_mem_map,
    decide_eq_false_iff_not, not_not, h.decl_eq]
  apply forall_congr'
  intro slot
  rw [subset_iff]
  simp only [h.present]
  apply imp_congr_right
  intro _
  constructor
  · intro hall r hr
    exact (hall r hr).1
  · intro hall r hr
    exact ⟨hall r hr, BitVec.lt_of_getLsbD hr⟩

theorem Views.conflictFreedom (h : Views inputs v) :
    v.conflictFreedom = none ↔ inputs.ConflictFree := by
  unfold Verified.conflictFreedom
  rw [ite_refusal_eq_none, any_slots h]
  simp only [ScheduleInputs.ConflictFree, decide_eq_false_iff_not, not_not, h.decl_eq]
  have hothers : ∀ slot ∈ inputs.schedule, ∀ q,
      (v.present &&& ~~~bit (slotIndex slot)).getLsbD q = true ↔
        (q ∈ inputs.order ∧ q < 64) ∧ q ≠ slotIndex slot := by
    intro slot hslot q
    rw [BitVec.getLsbD_and, Bool.and_eq_true, h.present, BitVec.getLsbD_not, getLsbD_bit]
    constructor
    · rintro ⟨hq, hne⟩
      simp only [hq.2, and_true, decide_true, Bool.true_and, Bool.not_eq_true',
        decide_eq_false_iff_not] at hne
      exact ⟨hq, hne⟩
    · rintro ⟨hq, hne⟩
      exact ⟨hq, by simp [hq.2, hne]⟩
  constructor
  · intro hall p hp q hq hne
    obtain ⟨slot, hslot, rfl⟩ := List.mem_map.mp hp
    by_contra hset
    have hset : (inputs.decl (slotIndex slot)).conflicts.getLsbD q = true := by simpa using hset
    have hfalse := disjoint_iff.mp (hall slot hslot) q hset
    have htrue := (hothers slot hslot q).mpr ⟨⟨hq, BitVec.lt_of_getLsbD hset⟩, hne⟩
    rw [hfalse] at htrue
    cases htrue
  · intro hall slot hslot
    apply disjoint_iff.mpr
    intro q hset
    by_contra htrue
    obtain ⟨⟨hq, -⟩, hne⟩ := (hothers slot hslot q).mp (by simpa using htrue)
    rw [hall _ (List.mem_map_of_mem hslot) q hq hne] at hset
    cases hset

theorem Views.prereqsBefore (h : Views inputs v) (p i : Nat) :
    v.prereqsBefore ((v.decl p).prerequisites &&& v.present) i = true ↔
      inputs.PlacedBefore i p := by
  unfold Verified.prereqsBefore
  simp only [List.all_eq_true, mem_setBits, BitVec.getLsbD_and, Bool.and_eq_true, h.present,
    h.decl_eq, decide_eq_true_eq]
  constructor
  · intro hall r hneeds hr
    have hlt : r < 64 := BitVec.lt_of_getLsbD hneeds
    rw [List.mem_take_iff_idxOf_lt hr, ← h.pos r hr hlt]
    exact hall r ⟨hneeds, hr, hlt⟩
  · rintro hall r ⟨hneeds, hr, hlt⟩
    rw [h.pos r hr hlt, ← List.mem_take_iff_idxOf_lt hr]
    exact hall r hneeds hr

theorem any_zipIdx {f : Nat → Nat → Bool} (h : Views inputs v) :
    (v.schedule.zipIdx.any fun (slot, i) => f (slotIndex slot) i) = false ↔
      ∀ i p, inputs.order[i]? = some p → f p i = false := by
  rw [List.any_eq_false, h.schedule]
  constructor
  · intro hall i p hp
    rw [ScheduleInputs.order, List.getElem?_map, Option.map_eq_some_iff] at hp
    obtain ⟨slot, hslot, rfl⟩ := hp
    simpa using hall (slot, i) (List.mem_zipIdx_iff_getElem?.mpr hslot)
  · intro hall e he
    have hslot := List.mem_zipIdx_iff_getElem?.mp he
    have hp : inputs.order[e.2]? = some (slotIndex e.1) := by
      rw [ScheduleInputs.order, List.getElem?_map, hslot]
      rfl
    simpa using hall e.2 (slotIndex e.1) hp

theorem Views.prereqOrder (h : Views inputs v) :
    v.prereqOrder = none ↔ inputs.PrereqsFirst := by
  unfold Verified.prereqOrder
  rw [ite_refusal_eq_none,
    any_zipIdx (f := fun p i => !v.prereqsBefore ((v.decl p).prerequisites &&& v.present) i) h]
  simp only [Bool.not_eq_false', h.prereqsBefore]
  rfl

theorem Views.phaseOrder (h : Views inputs v) :
    v.phaseOrder = none ↔ inputs.PhasesAscend := by
  have hzip : inputs.order.zip inputs.order.tail =
      (inputs.schedule.zip inputs.schedule.tail).map fun e => (slotIndex e.1, slotIndex e.2) := by
    rw [ScheduleInputs.order, ← List.map_tail, List.zip_map]
    rfl
  unfold Verified.phaseOrder ScheduleInputs.PhasesAscend
  rw [ite_refusal_eq_none, List.any_eq_false, h.schedule, hzip, List.forall_mem_map]
  simp only [h.decl_eq, decide_eq_true_eq, not_lt]

theorem getLsbD_foldl_or {α : Type*} (f : α → BitVec 64) (xs : List α) (acc : BitVec 64)
    (c : Nat) : (xs.foldl (fun acc x => acc ||| f x) acc).getLsbD c = true ↔
      acc.getLsbD c = true ∨ ∃ x ∈ xs, (f x).getLsbD c = true := by
  induction xs generalizing acc with
  | nil => simp
  | cons x xs ih =>
      rw [List.foldl_cons, ih, BitVec.getLsbD_or, Bool.or_eq_true, or_assoc]
      simp

theorem Views.coverage (h : Views inputs v) : v.coverage = none ↔ inputs.Covered := by
  unfold Verified.coverage
  have hcovered : ∀ c, v.covered.getLsbD c = true ↔
      ∃ p ∈ inputs.order, (inputs.decl p).covers.getLsbD c = true := by
    intro c
    unfold Verified.covered
    rw [getLsbD_foldl_or, h.schedule]
    simp [ScheduleInputs.order, h.decl_eq]
  by_cases hsub : v.required &&& ~~~v.covered = 0
  · simp only [hsub, ne_eq, not_true_eq_false, if_false, true_iff]
    intro c hc
    rw [subset_iff] at hsub
    rw [← h.required] at hc
    exact (hcovered c).mp (hsub c hc)
  · simp only [ne_eq, hsub, not_false_eq_true, if_true, reduceCtorEq, false_iff]
    intro hall
    apply hsub
    rw [subset_iff]
    intro c hc
    rw [h.required] at hc
    exact (hcovered c).mpr (hall c hc)

theorem Views.passedOver (hdistinct : inputs.DistinctInWord) (h : Views inputs v) (i p : Nat) :
    v.passedOverAReadySmaller p i = false ↔
      ∀ q ∈ inputs.order.drop (i + 1), q < 64 → inputs.PlacedBefore i q →
        ¬inputs.key q < inputs.key p := by
  have hlater : ∀ q ∈ inputs.order, q < 64 →
      (¬v.posOf q ≤ i ↔ q ∈ inputs.order.drop (i + 1)) := by
    intro q hq hlt
    have htake : v.posOf q ≤ i ↔ q ∈ inputs.order.take (i + 1) := by
      rw [h.pos q hq hlt, List.mem_take_iff_idxOf_lt hq, Nat.lt_succ_iff]
    have hsplit : ((inputs.order.take (i + 1) ++ inputs.order.drop (i + 1)).filter
        (· < 64)).Nodup := by
      rw [List.take_append_drop]
      exact hdistinct
    rw [List.filter_append] at hsplit
    rw [htake]
    constructor
    · intro hnot
      rw [← List.take_append_drop (i + 1) inputs.order, List.mem_append] at hq
      exact hq.resolve_left hnot
    · intro hdrop htaken
      have hlow := decide_eq_true hlt
      exact (List.nodup_append.mp hsplit).2.2 q (List.mem_filter.mpr ⟨htaken, hlow⟩) q
        (List.mem_filter.mpr ⟨hdrop, hlow⟩) rfl
  unfold Verified.passedOverAReadySmaller
  rw [List.any_eq_false]
  constructor
  · intro hall q hq hlt hbefore hless
    have hmem := List.mem_of_mem_drop hq
    have hnot := hall q (mem_setBits.mpr ((h.present q).mpr ⟨hmem, hlt⟩))
    rw [if_neg ((hlater q hmem hlt).mpr hq), h.key_eq, h.key_eq] at hnot
    apply hnot
    rw [Bool.and_eq_true, h.prereqsBefore]
    exact ⟨decide_eq_true hless, hbefore⟩
  · intro hall q hq
    obtain ⟨hmem, hlt⟩ := (h.present q).mp (mem_setBits.mp hq)
    split
    · simp
    · rename_i hpos
      rw [h.key_eq, h.key_eq, Bool.and_eq_true, h.prereqsBefore]
      rintro ⟨hless, hbefore⟩
      exact hall q ((hlater q hmem hlt).mp hpos) hlt hbefore (of_decide_eq_true hless)

theorem Views.canonicality (hdistinct : inputs.DistinctInWord) (h : Views inputs v) :
    v.canonicality = none ↔ inputs.CanonicalInWord := by
  unfold Verified.canonicality
  rw [ite_refusal_eq_none, any_zipIdx (f := fun p i => v.passedOverAReadySmaller p i) h]
  apply forall_congr'
  intro i
  apply forall_congr'
  intro p
  rw [h.passedOver hdistinct]

end Checks

/-! ### Admission -/

/-- Every check passes. -/
structure Admissible (inputs : ScheduleInputs) : Prop where
  inRange : inputs.InRange
  distinct : inputs.Distinct
  integrity : inputs.Integrity
  closed : inputs.Closed
  conflictFree : inputs.ConflictFree
  prereqsFirst : inputs.PrereqsFirst
  phasesAscend : inputs.PhasesAscend
  covered : inputs.Covered
  canonical : inputs.Canonical

/-- Every check passes, as far as the word sees. -/
structure AdmissibleInWord (inputs : ScheduleInputs) : Prop where
  inRange : inputs.InRange
  distinct : inputs.DistinctInWord
  integrity : inputs.Integrity
  closed : inputs.Closed
  conflictFree : inputs.ConflictFree
  prereqsFirst : inputs.PrereqsFirst
  phasesAscend : inputs.PhasesAscend
  covered : inputs.Covered
  canonical : inputs.CanonicalInWord

/-- What is admitted over a universe of any size. -/
theorem scheduleRefusal_eq_none_iff_inWord :
    scheduleRefusal inputs = none ↔ AdmissibleInWord inputs := by
  by_cases hrange : inputs.InRange
  · by_cases hdistinct : inputs.DistinctInWord
    · obtain ⟨v, hbuild, h⟩ := build_views hrange hdistinct
      unfold scheduleRefusal
      rw [hbuild]
      simp only [Option.or_eq_none_iff, h.declIntegrity, h.prereqClosure,
        h.conflictFreedom, h.prereqOrder, h.phaseOrder, h.coverage,
        h.canonicality hdistinct]
      constructor
      · rintro ⟨h₃, h₄, h₅, h₆, h₇, h₈, h₉⟩
        exact ⟨hrange, hdistinct, h₃, h₄, h₅, h₆, h₇, h₈, h₉⟩
      · intro ⟨_, _, h₃, h₄, h₅, h₆, h₇, h₈, h₉⟩
        exact ⟨h₃, h₄, h₅, h₆, h₇, h₈, h₉⟩
    · unfold scheduleRefusal
      rw [build_duplicate hrange hdistinct]
      simp only [reduceCtorEq, false_iff]
      exact fun h => hdistinct h.distinct
  · unfold scheduleRefusal
    rw [build_outOfRange hrange]
    simp only [reduceCtorEq, false_iff]
    exact fun h => hrange h.inRange

theorem scheduleRefusal_eq_none_iff (hn : inputs.declarations.length ≤ maxPrimitives) :
    scheduleRefusal inputs = none ↔ Admissible inputs := by
  rw [scheduleRefusal_eq_none_iff_inWord]
  constructor
  · intro h
    exact { h with
      distinct := (ScheduleInputs.distinctInWord_iff hn h.inRange).mp h.distinct
      canonical := (ScheduleInputs.canonicalInWord_iff hn h.inRange).mp h.canonical }
  · intro h
    exact { h with
      distinct := (ScheduleInputs.distinctInWord_iff hn h.inRange).mpr h.distinct
      canonical := (ScheduleInputs.canonicalInWord_iff hn h.inRange).mpr h.canonical }

/-- For a closed set the two order checks together say that the order is canonical. -/
theorem canonicalFrom_order_iff (hclosed : inputs.Closed) :
    CanonicalFrom inputs.Needs inputs.key [] inputs.order ↔
      inputs.PrereqsFirst ∧ inputs.Canonical := by
  have hready : ∀ i, ∀ q ∈ inputs.order,
      Ready inputs.Needs ([] ++ inputs.order.take i) q ↔ inputs.PlacedBefore i q := by
    intro i q hq
    constructor
    · intro h r hr _
      exact h r hr
    · intro h r hr
      exact h r hr (hclosed q hq r hr)
  rw [canonicalFrom_iff]
  constructor
  · intro h
    refine ⟨?_, ?_⟩
    · intro i p hp
      exact (hready i p (List.mem_of_getElem? hp)).mp (h i p hp).1
    · intro i p hp q hq hbefore
      exact (h i p hp).2 q hq ((hready i q (List.mem_of_mem_drop hq)).mpr hbefore)
  · rintro ⟨hfirst, hcanonical⟩ i p hp
    refine ⟨(hready i p (List.mem_of_getElem? hp)).mpr (hfirst i p hp), ?_⟩
    intro q hq hqready
    exact hcanonical i p hp q hq ((hready i q (List.mem_of_mem_drop hq)).mp hqready)

end Batpak.Bvisor
