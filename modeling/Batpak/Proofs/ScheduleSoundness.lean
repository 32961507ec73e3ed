/-
Module: Batpak.Proofs.ScheduleSoundness
Purpose: The schedule check over a universe of any size: no index expression leaves its list,
  and what is admitted is sound unless an index past the word is named twice.
Trusted boundary: none
Main exports: RepeatsBeyondWord, schedule_check_sound_iff
-/
import Batpak.Bvisor.ScheduleIndexing
import Batpak.Proofs.ScheduleChecks

namespace Batpak.Bvisor

open Batpak.Util

/-! ### Loops that stay in range -/

section Loops

variable {α σ : Type}

theorem anyM_some {f : α → Option Bool} {g : α → Bool} {xs : List α}
    (h : ∀ x ∈ xs, f x = some (g x)) : xs.anyM f = some (xs.any g) := by
  induction xs with
  | nil => rfl
  | cons x rest ih =>
      rw [List.anyM, h x List.mem_cons_self, List.any_cons]
      cases hx : g x with
      | true => simp
      | false => simpa using ih fun y hy => h y (List.mem_cons_of_mem _ hy)

theorem allM_some {f : α → Option Bool} {g : α → Bool} {xs : List α}
    (h : ∀ x ∈ xs, f x = some (g x)) : xs.allM f = some (xs.all g) := by
  induction xs with
  | nil => rfl
  | cons x rest ih =>
      rw [List.allM, h x List.mem_cons_self, List.all_cons]
      cases hx : g x with
      | true => simpa using ih fun y hy => h y (List.mem_cons_of_mem _ hy)
      | false => simp

theorem foldlM_some {f : σ → α → Option σ} {g : σ → α → σ} {xs : List α}
    (h : ∀ x ∈ xs, ∀ s, f s x = some (g s x)) (s : σ) : xs.foldlM f s = some (xs.foldl g s) := by
  induction xs generalizing s with
  | nil => rfl
  | cons x rest ih =>
      rw [List.foldlM_cons, h x List.mem_cons_self]
      exact ih (fun y hy => h y (List.mem_cons_of_mem _ hy)) _

end Loops

/-! ### Every index is in range -/

section Indexed

variable {inputs : ScheduleInputs} {v : Verified}

theorem placeIndexed_eq {n i : Nat} {slots : List ScheduleSlotInputs} {present : BitVec 64}
    {pos : List Nat} (hslots : ∀ slot ∈ slots, slotIndex slot < n) (hpos : pos.length = n) :
    Verified.placeIndexed i slots present pos = some (Verified.place i slots present pos) := by
  induction slots generalizing i present pos with
  | nil => rfl
  | cons slot rest ih =>
      have hp : slotIndex slot < pos.length := hpos ▸ hslots slot List.mem_cons_self
      unfold Verified.placeIndexed Verified.place
      by_cases hseen : present &&& bit (slotIndex slot) ≠ 0
      · rw [if_pos hseen, if_pos hseen]
      · rw [if_neg hseen, if_neg hseen, if_pos hp]
        apply ih fun s hs => hslots s (List.mem_cons_of_mem _ hs)
        rw [List.length_set, hpos]

theorem buildIndexed_eq (inputs : ScheduleInputs) :
    Verified.buildIndexed inputs = some (Verified.build inputs) := by
  unfold Verified.buildIndexed Verified.build
  by_cases hrange : inputs.InRange
  · rw [if_neg (any_outOfRange hrange), if_neg (any_outOfRange hrange),
      placeIndexed_eq (fun slot hslot => hrange _ (List.mem_map_of_mem hslot))
        List.length_replicate]
    rfl
  · have hbuild := build_outOfRange hrange
    unfold Verified.build at hbuild
    by_cases hany : (inputs.schedule.any fun slot =>
        decide (inputs.declarations.length ≤ slot.primitive.toNat)) = true
    · rw [if_pos hany, if_pos hany]
    · exfalso
      apply hrange
      intro p hp
      obtain ⟨slot, hslot, rfl⟩ := List.mem_map.mp hp
      by_contra hle
      exact hany (List.any_eq_true.mpr ⟨slot, hslot, decide_eq_true (Nat.not_lt.mp hle)⟩)

/-- What the checks look up is there. -/
structure LookedUp (v : Verified) : Prop where
  slot : ∀ slot ∈ v.schedule, v.decls[slotIndex slot]? = some (v.decl (slotIndex slot))
  decl : ∀ r, v.present.getLsbD r = true → v.decls[r]? = some (v.decl r)
  pos : ∀ r, v.present.getLsbD r = true → v.pos[r]? = some (v.posOf r)

theorem Views.lookedUp (hrange : inputs.InRange) (h : Views inputs v) : LookedUp v := by
  have hget : ∀ p ∈ inputs.order, v.decls[p]? = some (v.decl p) := by
    intro p hp
    have hlt := hrange p hp
    rw [← h.decls] at hlt
    unfold Verified.decl
    rw [List.getD_eq_getElem?_getD, List.getElem?_eq_getElem hlt]
    rfl
  constructor
  case slot =>
    intro slot hslot
    rw [h.schedule] at hslot
    exact hget _ (List.mem_map_of_mem hslot)
  case decl =>
    intro r hr
    exact hget r ((h.present r).mp hr).1
  case pos =>
    intro r hr
    have hlt := hrange r ((h.present r).mp hr).1
    rw [← h.places] at hlt
    unfold Verified.posOf
    rw [List.getD_eq_getElem?_getD, List.getElem?_eq_getElem hlt]
    rfl

theorem LookedUp.prereqsBefore (h : LookedUp v) (prereqs : BitVec 64) (before : Nat) :
    v.prereqsBeforeIndexed (prereqs &&& v.present) before =
      some (v.prereqsBefore (prereqs &&& v.present) before) := by
  apply allM_some
  intro r hr
  rw [mem_setBits, BitVec.getLsbD_and, Bool.and_eq_true] at hr
  rw [h.pos r hr.2]
  rfl

theorem LookedUp.zipIdx (h : LookedUp v) :
    ∀ e ∈ v.schedule.zipIdx, v.decls[slotIndex e.1]? = some (v.decl (slotIndex e.1)) := by
  intro e he
  exact h.slot e.1 (List.mem_of_getElem? (List.mem_zipIdx_iff_getElem?.mp he))

theorem LookedUp.passedOver (h : LookedUp v) {chosen : Nat}
    (hchosen : v.decls[chosen]? = some (v.decl chosen)) (i : Nat) :
    v.passedOverIndexed chosen i = some (v.passedOverAReadySmaller chosen i) := by
  unfold Verified.passedOverIndexed Verified.passedOverAReadySmaller
  rw [hchosen]
  apply anyM_some
  intro q hq
  rw [mem_setBits] at hq
  rw [h.pos q hq]
  change (if v.posOf q ≤ i then some false else _) = _
  by_cases hplaced : v.posOf q ≤ i
  · rw [if_pos hplaced, if_pos hplaced]
  · rw [if_neg hplaced, if_neg hplaced, h.decl q hq]
    change (v.prereqsBeforeIndexed ((v.decl q).prerequisites &&& v.present) i >>= _) = _
    rw [h.prereqsBefore]
    rfl

theorem refuseIf_some (c : Bool) (reason : ScheduleRefusal) (later : Option ScheduleRefusal) :
    Verified.refuseIf (some c) reason (some later) =
      some ((if c = true then some reason else none).or later) := by
  cases c with
  | true => rfl
  | false => rfl

theorem LookedUp.firstRefusal (h : LookedUp v) : v.firstRefusalIndexed =
    some (v.declIntegrity.or <| v.prereqClosure.or <| v.conflictFreedom.or <| v.prereqOrder.or <|
      v.phaseOrder.or <| v.coverage.or v.canonicality) := by
  have hintegrity : v.declIntegrityIndexed = some (v.schedule.any fun slot =>
      slot.claimedDeclDigest ≠ (v.decl (slotIndex slot)).declDigest ||
        slot.claimedParamDigest ≠ (v.decl (slotIndex slot)).paramDigest) := by
    apply anyM_some
    intro slot hslot
    rw [h.slot slot hslot]
    rfl
  have hclosure : v.prereqClosureIndexed = some (v.schedule.any fun slot =>
      (v.decl (slotIndex slot)).prerequisites &&& ~~~v.present ≠ 0) := by
    apply anyM_some
    intro slot hslot
    rw [h.slot slot hslot]
    rfl
  have hconflict : v.conflictFreedomIndexed = some (v.schedule.any fun slot =>
      (v.decl (slotIndex slot)).conflicts &&& (v.present &&& ~~~bit (slotIndex slot)) ≠ 0) := by
    apply anyM_some
    intro slot hslot
    rw [h.slot slot hslot]
    rfl
  have horder : v.prereqOrderIndexed = some (v.schedule.zipIdx.any fun e =>
      !v.prereqsBefore ((v.decl (slotIndex e.1)).prerequisites &&& v.present) e.2) := by
    apply anyM_some
    intro e he
    dsimp only
    rw [h.zipIdx e he]
    change (v.prereqsBeforeIndexed _ _ >>= _) = _
    rw [h.prereqsBefore]
    rfl
  have hphase : v.phaseOrderIndexed = some ((v.schedule.zip v.schedule.tail).any fun e =>
      (v.decl (slotIndex e.2)).phase.toNat < (v.decl (slotIndex e.1)).phase.toNat) := by
    apply anyM_some
    intro e he
    obtain ⟨hfirst, hsecond⟩ := List.of_mem_zip he
    dsimp only
    rw [h.slot e.1 hfirst, h.slot e.2 (List.mem_of_mem_tail hsecond)]
    rfl
  have hcoverage : v.coverageIndexed = some (decide (v.required &&& ~~~v.covered ≠ 0)) := by
    have hcovered : (v.schedule.foldlM (fun acc slot => (v.decls[slotIndex slot]?).map fun decl =>
        acc ||| decl.covers) (0 : BitVec 64)) = some v.covered := by
      apply foldlM_some
      intro slot hslot acc
      rw [h.slot slot hslot]
      rfl
    unfold Verified.coverageIndexed
    rw [hcovered]
    rfl
  have hcanonical : v.canonicalityIndexed = some (v.schedule.zipIdx.any fun e =>
      v.passedOverAReadySmaller (slotIndex e.1) e.2) := by
    apply anyM_some
    intro e he
    exact h.passedOver (h.zipIdx e he) e.2
  have hcovers : v.coverage = if decide (v.required &&& ~~~v.covered ≠ 0) = true
      then some .requirementUncovered else none := by
    rw [Verified.coverage]
    simp only [decide_eq_true_eq]
  unfold Verified.firstRefusalIndexed
  rw [hintegrity, hclosure, hconflict, horder, hphase, hcoverage, hcanonical, hcovers]
  simp only [refuseIf_some, Option.or_none]
  rfl

theorem scheduleRefusalIndexed_eq (inputs : ScheduleInputs) :
    scheduleRefusalIndexed inputs = some (scheduleRefusal inputs) := by
  unfold scheduleRefusalIndexed scheduleRefusal
  rw [buildIndexed_eq]
  by_cases hrange : inputs.InRange
  · by_cases hdistinct : inputs.DistinctInWord
    · obtain ⟨v, hbuild, h⟩ := build_views hrange hdistinct
      rw [hbuild]
      exact (h.lookedUp hrange).firstRefusal
    · rw [build_duplicate hrange hdistinct]
  · rw [build_outOfRange hrange]

end Indexed

/-! ### Soundness -/

/-- What an admitted schedule promises. -/
structure SoundSchedule (inputs : ScheduleInputs) : Prop where
  inRange : inputs.InRange
  distinct : inputs.Distinct
  prerequisitesEarlier : ∀ i p, inputs.order[i]? = some p →
    ∀ r, inputs.Needs p r → r ∈ inputs.order.take i
  conflictFree : inputs.ConflictFree
  phasesAscend : inputs.PhasesAscend
  covered : inputs.Covered

/-- An index that the word cannot hold is named twice. -/
def RepeatsBeyondWord (inputs : ScheduleInputs) : Prop :=
  ∃ p, 64 ≤ p ∧ 1 < inputs.order.count p

theorem distinct_iff {inputs : ScheduleInputs} (h : inputs.DistinctInWord) :
    inputs.Distinct ↔ ¬RepeatsBeyondWord inputs := by
  unfold ScheduleInputs.Distinct RepeatsBeyondWord
  rw [List.nodup_iff_count_le_one]
  constructor
  · rintro hcount ⟨p, -, htwice⟩
    exact absurd (hcount p) (Nat.not_le.mpr htwice)
  · intro hnone p
    by_cases hlow : p < 64
    · have hcount := List.nodup_iff_count_le_one.mp h p
      have hsame := List.count_filter (l := inputs.order) (p := fun q => decide (q < 64))
        (decide_eq_true hlow)
      rwa [hsame] at hcount
    · by_contra htwice
      exact hnone ⟨p, Nat.not_lt.mp hlow, Nat.not_le.mp htwice⟩

theorem AdmissibleInWord.sound {inputs : ScheduleInputs} (h : AdmissibleInWord inputs)
    (hdistinct : inputs.Distinct) : SoundSchedule inputs where
  inRange := h.inRange
  distinct := hdistinct
  prerequisitesEarlier i p hp r hr :=
    h.prereqsFirst i p hp r hr (h.closed p (List.mem_of_getElem? hp) r hr)
  conflictFree := h.conflictFree
  phasesAscend := h.phasesAscend
  covered := h.covered

/-- The check looks at nothing that is not there. What it admits is sound, unless the schedule
passes every check as far as the word sees and names an index past the word twice. -/
theorem schedule_check_sound_iff (inputs : ScheduleInputs) :
    (∃ refusal, scheduleRefusalIndexed inputs = some refusal ∧
      (refusal = none → SoundSchedule inputs)) ↔
    ¬(AdmissibleInWord inputs ∧ RepeatsBeyondWord inputs) := by
  constructor
  · rintro ⟨refusal, hrefusal, hsound⟩ ⟨hadmissible, hrepeats⟩
    rw [scheduleRefusalIndexed_eq, Option.some.injEq] at hrefusal
    have hadmitted := scheduleRefusal_eq_none_iff_inWord.mpr hadmissible
    rw [hrefusal] at hadmitted
    exact (distinct_iff hadmissible.distinct).mp (hsound hadmitted).distinct hrepeats
  · intro hnot
    refine ⟨_, scheduleRefusalIndexed_eq inputs, ?_⟩
    intro hadmitted
    have hadmissible := scheduleRefusal_eq_none_iff_inWord.mp hadmitted
    apply hadmissible.sound
    rw [distinct_iff hadmissible.distinct]
    intro hrepeats
    exact hnot ⟨hadmissible, hrepeats⟩

/-- Sixty-five primitives without declarations of their own; the last one is scheduled twice. -/
def lastTwice : ScheduleInputs :=
  ⟨List.replicate 65 ⟨0, 0, 0, 0, 0, 0⟩, [⟨64, 0, 0⟩, ⟨64, 0, 0⟩], 0⟩

theorem repetition_beyond_word_admitted :
    scheduleRefusalIndexed lastTwice = some none ∧ ¬SoundSchedule lastTwice := by
  refine ⟨by decide +kernel, ?_⟩
  intro h
  have hrepeated : ¬lastTwice.order.Nodup := by decide +kernel
  exact hrepeated h.distinct

end Batpak.Bvisor
