/-
Module: Batpak.Util.Lanes
Purpose: A log, newest entry first, whose entries belong to lanes, each continuing the head of its
  lane.
Trusted boundary: none
Main exports: laneHead, Chained
-/
import Mathlib.Data.List.Pairwise
import Mathlib.Data.List.Perm.Basic

namespace Batpak.Util

variable {α κ : Type*} [DecidableEq κ] {key : α → κ}

/-- The newest entry of a lane. -/
def laneHead (key : α → κ) (k : κ) (log : List α) : Option α :=
  log.find? fun a => key a = k

/-- Every entry continues the head its lane had when it was added. -/
def Chained (key : α → κ) (R : Option α → α → Prop) : List α → Prop
  | [] => True
  | a :: log => R (laneHead key (key a) log) a ∧ Chained key R log

instance decidableChained (R : Option α → α → Prop) [∀ head a, Decidable (R head a)] :
    (log : List α) → Decidable (Chained key R log)
  | [] => inferInstanceAs (Decidable True)
  | a :: log =>
      have := decidableChained R log
      inferInstanceAs (Decidable (R (laneHead key (key a) log) a ∧ Chained key R log))

@[simp] theorem laneHead_nil (k : κ) : laneHead key k ([] : List α) = none := rfl

theorem laneHead_cons (a : α) (log : List α) (k : κ) :
    laneHead key k (a :: log) = if key a = k then some a else laneHead key k log := by
  unfold laneHead
  rw [List.find?_cons]
  by_cases h : key a = k
  · simp [h]
  · simp [h]

theorem mem_of_laneHead {k : κ} {log : List α} {a : α} (h : laneHead key k log = some a) :
    a ∈ log ∧ key a = k :=
  ⟨List.mem_of_find?_eq_some h, by simpa using List.find?_some h⟩

theorem laneHead_eq_none {k : κ} {log : List α} :
    laneHead key k log = none ↔ ∀ a ∈ log, key a ≠ k := by
  simp [laneHead]

/-- The head of a lane with the entries of the lane behind it. -/
theorem laneHead_split {k : κ} {log : List α} {h : α} (hhead : laneHead key k log = some h) :
    ∃ newer older, log = newer ++ h :: older ∧ ∀ b ∈ log, key b = k → b = h ∨ b ∈ older := by
  obtain ⟨-, newer, older, rfl, hnewer⟩ := List.find?_eq_some_iff_append.mp hhead
  refine ⟨newer, older, rfl, ?_⟩
  intro b hb hkey
  rcases List.mem_append.mp hb with hb | hb
  · have hnot := hnewer b hb
    simp [hkey] at hnot
  · exact List.mem_cons.mp hb

section Chains

variable {R : Option α → α → Prop} {log : List α}

theorem Chained.append {newer : List α} (h : Chained key R (newer ++ log)) : Chained key R log := by
  induction newer with
  | nil => exact h
  | cons a newer ih => exact ih h.2

/-- Where an entry was added. -/
theorem Chained.link (h : Chained key R log) {a : α} (ha : a ∈ log) :
    ∃ older, (a :: older) <:+ log ∧ R (laneHead key (key a) older) a := by
  obtain ⟨newer, older, rfl⟩ := List.append_of_mem ha
  exact ⟨older, List.suffix_append _ _, (Chained.append h).1⟩

/-- What holds between the neighbours of a lane holds between all its entries. -/
theorem Chained.pairwise {S : α → α → Prop} (htrans : ∀ a b c, S a b → S b c → S a c)
    (hlink : ∀ h a, R (some h) a → S h a) (hchained : Chained key R log) :
    log.Pairwise fun a b => key a = key b → S b a := by
  induction log with
  | nil => exact .nil
  | cons a log ih =>
      have hrest := ih hchained.2
      rw [List.pairwise_cons]
      refine ⟨?_, hrest⟩
      intro b hb hkey
      cases hhead : laneHead key (key a) log with
      | none => exact absurd hkey.symm (laneHead_eq_none.mp hhead b hb)
      | some h =>
          have hnext : S h a := hlink h a (hhead ▸ hchained.1)
          obtain ⟨newer, older, hsplit, hbehind⟩ := laneHead_split hhead
          rcases hbehind b hb hkey.symm with rfl | hbo
          · exact hnext
          · rw [hsplit, List.pairwise_append, List.pairwise_cons] at hrest
            have hbh : S b h :=
              hrest.2.1.1 b hbo ((mem_of_laneHead hhead).2.trans hkey)
            exact htrans b h a hbh hnext

/-- Every entry continues the one behind it. -/
def Linked (R : Option α → α → Prop) : List α → Prop
  | [] => True
  | a :: log => R log.head? a ∧ Linked R log

/-- The entries of one lane are linked. -/
theorem Chained.linked (h : Chained key R log) (k : κ) :
    Linked R (log.filter fun a => key a = k) := by
  induction log with
  | nil => trivial
  | cons a log ih =>
      have hrest := ih h.2
      by_cases hkey : key a = k
      · rw [List.filter_cons_of_pos (by simp [hkey])]
        constructor
        · rw [List.head?_filter, ← hkey]
          exact h.1
        · exact hrest
      · rw [List.filter_cons_of_neg (by simp [hkey])]
        exact hrest

/-- Of two entries of a pairwise related list one comes first. -/
theorem pairwise_mem {P : α → α → Prop} (h : log.Pairwise P) {a b : α} (ha : a ∈ log)
    (hb : b ∈ log) (hne : a ≠ b) : P a b ∨ P b a := by
  have hsymm : Std.Symm fun a b => P a b ∨ P b a := ⟨fun _ _ hab => hab.symm⟩
  have heither : log.Pairwise fun a b => P a b ∨ P b a := h.imp Or.inl
  exact heither.forall ha hb hne

end Chains

/-- Two arrangements of the same entries that both have the later entries of a lane first
agree on the heads. -/
theorem laneHead_eq_of_perm {S : α → α → Prop} (hasymm : ∀ a b, S a b → ¬S b a) {log log' : List α}
    (hperm : log'.Perm log) (h : log.Pairwise fun a b => key a = key b → S b a)
    (h' : log'.Pairwise fun a b => key a = key b → S b a) (k : κ) :
    laneHead key k log' = laneHead key k log := by
  cases hhead : laneHead key k log with
  | none =>
      rw [laneHead_eq_none] at hhead ⊢
      intro a ha
      exact hhead a (hperm.mem_iff.mp ha)
  | some a =>
      obtain ⟨ha, hka⟩ := mem_of_laneHead hhead
      cases hhead' : laneHead key k log' with
      | none => exact absurd hka (laneHead_eq_none.mp hhead' a (hperm.mem_iff.mpr ha))
      | some b =>
          obtain ⟨hb, hkb⟩ := mem_of_laneHead hhead'
          by_cases heq : b = a
          · rw [heq]
          · -- each of the two is behind the other one in one of the arrangements
            exfalso
            obtain ⟨newer, older, hsplit, hbehind⟩ := laneHead_split hhead
            obtain ⟨newer', older', hsplit', hbehind'⟩ := laneHead_split hhead'
            have hba : S b a := by
              have hbo := (hbehind b (hperm.mem_iff.mp hb) hkb).resolve_left heq
              rw [hsplit, List.pairwise_append, List.pairwise_cons] at h
              exact h.2.1.1 b hbo (hka.trans hkb.symm)
            have hab : S a b := by
              have hao := (hbehind' a (hperm.mem_iff.mpr ha) hka).resolve_left (Ne.symm heq)
              rw [hsplit', List.pairwise_append, List.pairwise_cons] at h'
              exact h'.2.1.1 a hao (hkb.trans hka.symm)
            exact hasymm a b hab hba

end Batpak.Util
