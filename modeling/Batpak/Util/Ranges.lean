/-
Module: Batpak.Util.Ranges
Purpose: Finite unions of half-open intervals of naturals kept as a list that is
  re-sorted and coalesced on every insertion, and what such a list denotes.
Trusted boundary: none
Main exports: rangeContains, coalesceFrom
-/
import Mathlib.Data.List.Sort

namespace Batpak.Util

/-- A half-open interval `[start, end)`. -/
abbrev Range := Nat × Nat

/-- Membership in the union of a list of half-open intervals. -/
def rangeContains (ranges : List Range) (x : Nat) : Bool :=
  ranges.any fun r => r.1 ≤ x && x < r.2

/-- Merge a start-sorted list into the interval being built, closing it at the first
gap. An interval that starts exactly at the end of the current one is absorbed. -/
def coalesceFrom (cur : Range) : List Range → List Range
  | [] => [cur]
  | r :: rest =>
      if r.1 ≤ cur.2 then coalesceFrom (cur.1, max cur.2 r.2) rest
      else cur :: coalesceFrom r rest

def coalesce : List Range → List Range
  | [] => []
  | r :: rest => coalesceFrom r rest

/-- Insert one interval: push, sort by start, coalesce. Empty intervals are ignored. -/
def insertRange (ranges : List Range) (start stop : Nat) : List Range :=
  if stop ≤ start then ranges
  else coalesce ((ranges ++ [(start, stop)]).insertionSort fun a b => a.1 ≤ b.1)

@[simp] theorem rangeContains_nil (x : Nat) : rangeContains [] x = false := rfl

@[simp] theorem rangeContains_cons (r : Range) (rs : List Range) (x : Nat) :
    rangeContains (r :: rs) x = ((r.1 ≤ x && x < r.2) || rangeContains rs x) := rfl

theorem rangeContains_iff (rs : List Range) (x : Nat) :
    rangeContains rs x = true ↔ ∃ r ∈ rs, r.1 ≤ x ∧ x < r.2 := by
  simp [rangeContains]

theorem rangeContains_perm {rs rs' : List Range} (h : rs.Perm rs') (x : Nat) :
    rangeContains rs x = rangeContains rs' x := by
  rw [Bool.eq_iff_iff, rangeContains_iff, rangeContains_iff]
  constructor
  · rintro ⟨r, hr, hx⟩
    exact ⟨r, h.mem_iff.mp hr, hx⟩
  · rintro ⟨r, hr, hx⟩
    exact ⟨r, h.mem_iff.mpr hr, hx⟩

theorem pairwise_sortRanges (rs : List Range) :
    (rs.insertionSort fun a b => a.1 ≤ b.1).Pairwise fun a b => a.1 ≤ b.1 := by
  have : Std.Total fun a b : Range => a.1 ≤ b.1 := ⟨fun a b => Nat.le_total a.1 b.1⟩
  have : IsTrans Range fun a b => a.1 ≤ b.1 := ⟨fun a b c => Nat.le_trans⟩
  exact List.pairwise_insertionSort _ _

/-- Coalescing keeps the union when the current interval starts first. -/
theorem rangeContains_coalesceFrom (cur : Range) (rs : List Range) (x : Nat)
    (hsorted : (cur :: rs).Pairwise fun a b => a.1 ≤ b.1) :
    rangeContains (coalesceFrom cur rs) x = rangeContains (cur :: rs) x := by
  induction rs generalizing cur with
  | nil => rfl
  | cons r rest ih =>
      obtain ⟨hcur, hrest⟩ := List.pairwise_cons.mp hsorted
      obtain ⟨hr, htail⟩ := List.pairwise_cons.mp hrest
      have hle : cur.1 ≤ r.1 := hcur r List.mem_cons_self
      unfold coalesceFrom
      split
      · rename_i habsorb
        rw [ih (cur.1, max cur.2 r.2)
          (List.pairwise_cons.mpr ⟨fun b hb => hcur b (List.mem_cons_of_mem _ hb), htail⟩)]
        simp only [rangeContains_cons]
        rw [← Bool.or_assoc]
        congr 1
        rw [Bool.eq_iff_iff]
        simp only [Bool.and_eq_true, Bool.or_eq_true, decide_eq_true_eq]
        omega
      · simp only [rangeContains_cons]
        rw [ih r hrest]
        rfl

/-- Sorting and coalescing keep the union. -/
theorem rangeContains_coalesce_sort (rs : List Range) (x : Nat) :
    rangeContains (coalesce (rs.insertionSort fun a b => a.1 ≤ b.1)) x = rangeContains rs x := by
  have hperm := List.perm_insertionSort (fun a b : Range => a.1 ≤ b.1) rs
  have hsorted := pairwise_sortRanges rs
  rw [← rangeContains_perm hperm x]
  generalize rs.insertionSort (fun a b => a.1 ≤ b.1) = sorted at hsorted
  cases sorted with
  | nil => rfl
  | cons r rest => exact rangeContains_coalesceFrom r rest x hsorted

/-- The list after an insertion denotes the old union plus the new interval. -/
theorem rangeContains_insertRange (rs : List Range) (start stop x : Nat) :
    rangeContains (insertRange rs start stop) x =
      (rangeContains rs x || (start ≤ x && x < stop)) := by
  unfold insertRange
  split
  · rename_i hempty
    have hnot : (decide (start ≤ x) && decide (x < stop)) = false := by
      rw [Bool.and_eq_false_iff]
      simp only [decide_eq_false_iff_not]
      omega
    rw [hnot, Bool.or_false]
  · rw [rangeContains_coalesce_sort, rangeContains, List.any_append]
    simp [rangeContains]

/-! ### Separated lists -/

/-- Sorted, disjoint and with gaps between non-empty intervals. -/
structure Separated (rs : List Range) : Prop where
  nonempty : ∀ r ∈ rs, r.1 < r.2
  gaps : rs.Pairwise fun a b => a.2 < b.1

/-- Coalescing leaves gaps only, starts where the list starts, and ends nowhere new. -/
theorem separated_coalesceFrom (cur : Range) (rs : List Range)
    (hsorted : (cur :: rs).Pairwise fun a b => a.1 ≤ b.1)
    (hnonempty : ∀ r ∈ cur :: rs, r.1 < r.2) :
    Separated (coalesceFrom cur rs) ∧
      ∀ r ∈ coalesceFrom cur rs, cur.1 ≤ r.1 ∧ ∃ s ∈ cur :: rs, r.2 = s.2 := by
  induction rs generalizing cur with
  | nil =>
      have hcur : cur.1 < cur.2 := hnonempty cur List.mem_cons_self
      exact ⟨⟨by simpa [coalesceFrom] using hcur, List.pairwise_singleton _ _⟩,
        by simp [coalesceFrom]⟩
  | cons r rest ih =>
      obtain ⟨hcur, hrest⟩ := List.pairwise_cons.mp hsorted
      obtain ⟨hfirst, htail⟩ := List.forall_mem_cons.mp hnonempty
      have hle : cur.1 ≤ r.1 := hcur r List.mem_cons_self
      unfold coalesceFrom
      split
      next =>
        have hmerged : cur.1 < max cur.2 r.2 := Nat.lt_of_lt_of_le hfirst (Nat.le_max_left _ _)
        obtain ⟨hseparated, hends⟩ := ih (cur.1, max cur.2 r.2)
          (List.pairwise_cons.mpr
            ⟨fun b hb => hcur b (List.mem_cons_of_mem _ hb), (List.pairwise_cons.mp hrest).2⟩)
          (List.forall_mem_cons.mpr ⟨hmerged, (List.forall_mem_cons.mp htail).2⟩)
        refine ⟨hseparated, fun r' hr' => ⟨(hends r' hr').1, ?_⟩⟩
        obtain ⟨s, hs, hend⟩ := (hends r' hr').2
        rcases List.mem_cons.mp hs with rfl | hs
        · rcases Nat.le_total cur.2 r.2 with hmax | hmax
          · exact ⟨r, by simp, hend.trans (Nat.max_eq_right hmax)⟩
          · exact ⟨cur, by simp, hend.trans (Nat.max_eq_left hmax)⟩
        · exact ⟨s, by simp [hs], hend⟩
      next hgap =>
        obtain ⟨hseparated, hends⟩ := ih r hrest htail
        refine ⟨⟨?nonempty, ?gaps⟩, ?ends⟩
        case nonempty => exact List.forall_mem_cons.mpr ⟨hfirst, hseparated.nonempty⟩
        case gaps =>
          refine List.pairwise_cons.mpr ⟨fun r' hr' => ?_, hseparated.gaps⟩
          exact Nat.lt_of_lt_of_le (Nat.not_le.mp hgap) (hends r' hr').1
        case ends =>
          refine List.forall_mem_cons.mpr ⟨⟨Nat.le_refl _, cur, by simp⟩, fun r' hr' => ?_⟩
          obtain ⟨hstart, s, hs, hend⟩ := hends r' hr'
          exact ⟨Nat.le_trans hle hstart, s, List.mem_cons_of_mem _ hs, hend⟩

theorem separated_coalesce_sort {rs : List Range} (h : ∀ r ∈ rs, r.1 < r.2) :
    Separated (coalesce (rs.insertionSort fun a b => a.1 ≤ b.1)) ∧
      ∀ r ∈ coalesce (rs.insertionSort fun a b => a.1 ≤ b.1), ∃ s ∈ rs, r.2 = s.2 := by
  have hsorted := pairwise_sortRanges rs
  have hmem : ∀ r, r ∈ rs.insertionSort (fun a b => a.1 ≤ b.1) ↔ r ∈ rs :=
    fun r => (List.perm_insertionSort _ rs).mem_iff
  generalize rs.insertionSort (fun a b => a.1 ≤ b.1) = sorted at hsorted hmem
  cases sorted with
  | nil => exact ⟨⟨nofun, .nil⟩, nofun⟩
  | cons r rest =>
      obtain ⟨hseparated, hends⟩ :=
        separated_coalesceFrom r rest hsorted fun r' hr' => h r' ((hmem r').mp hr')
      refine ⟨hseparated, fun r' hr' => ?_⟩
      obtain ⟨s, hs, hend⟩ := (hends r' hr').2
      exact ⟨s, (hmem s).mp hs, hend⟩

theorem Separated.insertRange {rs : List Range} (h : Separated rs) (start stop : Nat) :
    Separated (insertRange rs start stop) := by
  unfold Util.insertRange
  split
  next => exact h
  next hle =>
    refine (separated_coalesce_sort fun r hr => ?_).1
    rcases List.mem_append.mp hr with hr | hr
    · exact h.nonempty r hr
    · rw [List.mem_singleton.mp hr]
      exact Nat.not_le.mp hle

section Canonical

variable {rs rs' rest : List Range} {r : Range} {x : Nat}

/-- Up to the end of the first interval, it decides alone. -/
theorem Separated.tail_of_le (h : Separated (r :: rest)) (hx : x ≤ r.2) :
    rangeContains rest x = false := by
  apply List.any_eq_false.mpr
  intro s hs
  have hgap : r.2 < s.1 := (List.pairwise_cons.mp h.gaps).1 s hs
  simp
  omega

theorem Separated.head_le (h : Separated (r :: rest)) (hx : rangeContains (r :: rest) x = true) :
    r.1 ≤ x := by
  by_contra hlt
  have hend : r.1 < r.2 := h.nonempty r List.mem_cons_self
  rw [rangeContains_cons, h.tail_of_le (by omega)] at hx
  simp [hlt] at hx

theorem Separated.tail (h : Separated (r :: rest)) : Separated rest :=
  ⟨(List.forall_mem_cons.mp h.nonempty).2, (List.pairwise_cons.mp h.gaps).2⟩

/-- Separated lists with the same union are the same list. -/
theorem Separated.ext (h : Separated rs) (h' : Separated rs')
    (hsame : ∀ x, rangeContains rs x = rangeContains rs' x) : rs = rs' := by
  induction rs generalizing rs' with
  | nil =>
      cases rs' with
      | nil => rfl
      | cons r' rest' => simpa [h'.nonempty r' List.mem_cons_self] using hsame r'.1
  | cons r rest ih =>
      cases rs' with
      | nil => simpa [h.nonempty r List.mem_cons_self] using hsame r.1
      | cons r' rest' =>
          have hne : r.1 < r.2 := h.nonempty r List.mem_cons_self
          have hne' : r'.1 < r'.2 := h'.nonempty r' List.mem_cons_self
          have hle : r.1 ≤ r'.1 := h.head_le (by rw [hsame]; simp [hne'])
          have hge : r'.1 ≤ r.1 := h'.head_le (by rw [← hsame]; simp [hne])
          -- neither list contains the end of its first interval
          have hend := hsame r.2
          have hend' := hsame r'.2
          simp [h.tail_of_le (Nat.le_refl _)] at hend
          simp [h'.tail_of_le (Nat.le_refl _)] at hend'
          obtain rfl : r = r' := Prod.ext (by omega) (by omega)
          rw [ih h.tail h'.tail fun x => ?_]
          rcases Nat.lt_or_ge r.2 x with hx | hx
          · simpa [Nat.not_lt.mpr (Nat.le_of_lt hx)] using hsame x
          · rw [h.tail_of_le hx, h'.tail_of_le hx]

end Canonical

end Batpak.Util
